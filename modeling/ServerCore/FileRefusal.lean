/-
  File:      ServerCore/FileRefusal.lean
  Subject:   What a refused reception leaves behind.

  StartFileReceive (FileTransfer.cpp) renames, then truncates, then grows, and returns false from
  any of the three without taking back what was done before. A refused reception never touches
  the map of transfers; the file of the name and its backup are as they were just under
  `SafeRefusal`, a condition on the file system, the header and the faults alone
  (`refusal_harmless_iff`). A request for no bytes at all is refused once the file is truncated
  (`refusal_harmful`).
-/
import ServerCore.FileWrite

namespace ServerCore

/-! ## 1. The backup -/

/-- The name of the backup. -/
def bakPath (filePath : Path) : Path := filePath ++ Path.ofString ".bak"

theorem not_sameFile_bakPath (filePath : Path) : ¬ Path.SameFile (bakPath filePath) filePath :=
  Path.not_sameFile_append_bak filePath

/-- Where there is no file of the name, the backup does not touch the old backup: nothing is moved
    where that is. -/
theorem FileSystem.files_backup_of_none {fs : FileSystem} {filePath : Path} {content : List UInt8}
    (fails : Bool) (h : fs.files filePath = none)
    (hbak : fs.files (bakPath filePath) = some content) :
    (fs.backup filePath fails).files (bakPath filePath) = some content := by
  unfold FileSystem.backup
  split
  · have hexists : fs.exists? (bakPath filePath) = true := by simp [FileSystem.exists?, hbak]
    unfold FileSystem.rename
    rw [h]
    dsimp only
    rw [if_pos (.inl hexists)]
    exact hbak
  · exact hbak

/-- The file of the name is moved to the name of the backup. -/
theorem FileSystem.files_backup_of_some {fs : FileSystem} {filePath : Path} {content : List UInt8}
    (h : fs.files filePath = some content) :
    (fs.backup filePath false).files filePath = none ∧
      (fs.backup filePath false).files (bakPath filePath) = some content := by
  have hexists : (fs.exists? filePath && !false) = true := by simp [FileSystem.exists?, h]
  unfold FileSystem.backup
  rw [if_pos hexists]
  unfold FileSystem.rename
  rw [h]
  refine ⟨Function.update_self .., ?_⟩
  exact (Function.update_of_ne (not_sameFile_bakPath filePath) _ _).trans (Function.update_self ..)

theorem FileSystem.backup_of_fails (fs : FileSystem) (filePath : Path) :
    fs.backup filePath true = fs := by
  unfold FileSystem.backup
  rw [Bool.not_true, Bool.and_false, if_neg Bool.false_ne_true]

/-! ## 2. The pre-allocation -/

/-- The file can be grown to the announced size. -/
def Preallocates (header : List UInt8) (fault : Option Nat) : Prop :=
  1 ≤ FileHeader.fileSize header ∧ FileHeader.fileSize header ≤ 2 ^ 63 ∧ fault = none

/-- What a pre-allocation that fails leaves in the truncated file: nothing, or all of it where the
    zero at its end was still stored. -/
def leftBehind (header : List UInt8) (fault : Option Nat) : List UInt8 :=
  if 1 ≤ FileHeader.fileSize header ∧ FileHeader.fileSize header ≤ 2 ^ 63 ∧ fault ≠ some 0 then
    List.replicate (FileHeader.fileSize header) 0
  else []

theorem good_preallocate_truncated (fs : FileSystem) (filePath : Path) (header : List UInt8)
    (fault : Option Nat) :
    (OFStream.preallocate ⟨filePath, 0, true⟩ fs (FileHeader.fileSize header) fault).1.good = true ↔
      Preallocates header fault :=
  OFStream.good_preallocate_iff

/-- The one byte, or none of it. -/
theorem stored_reached_zero (n k : Nat) (h : 1 ≤ n) :
    OFStream.stored [] (n - 1) (OFStream.reached [0] (some k)) =
      if k = 0 then [] else List.replicate n 0 := by
  unfold OFStream.reached
  cases k with
  | zero => rfl
  | succ k =>
      rw [if_neg (Nat.succ_ne_zero k), ← patch_nil_zero h]
      dsimp only
      rw [List.take_succ_cons, List.take_nil]
      rfl

/-- The truncated file after a pre-allocation that failed. -/
theorem files_preallocate_of_bad {fs : FileSystem} {filePath : Path} {header : List UInt8}
    {fault : Option Nat} (h : ¬ Preallocates header fault) :
    (OFStream.preallocate ⟨filePath, 0, true⟩ (fs.setFile filePath [])
      (FileHeader.fileSize header) fault).2.files filePath = some (leftBehind header fault) := by
  unfold OFStream.preallocate OFStream.put0 leftBehind
  by_cases hsize : 1 ≤ FileHeader.fileSize header ∧ FileHeader.fileSize header ≤ 2 ^ 63
  · have hseek : OFStream.seekp ⟨filePath, 0, true⟩ (FileHeader.fileSize header - 1) =
        ⟨filePath, FileHeader.fileSize header - 1, true⟩ := if_pos ⟨rfl, by omega⟩
    rw [lastPosition_of_pos hsize.1, hseek]
    cases fault with
    | none => exact absurd ⟨hsize.1, hsize.2, rfl⟩ h
    | some k =>
        rw [OFStream.files_write _ _ _ _ rfl]
        dsimp only
        rw [FileSystem.files_setFile_self, Option.getD_some, stored_reached_zero _ k hsize.1]
        by_cases hk : k = 0
        · rw [if_pos hk, if_neg (by simp [hk])]
        · rw [if_neg hk, if_pos ⟨hsize.1, hsize.2, by simpa using hk⟩]
  · -- the position is no position: the stream is bad before the write
    have hbad : (OFStream.seekp ⟨filePath, 0, true⟩
        (lastPosition (FileHeader.fileSize header))).good = false := by
      rw [Bool.eq_false_iff]
      intro hgood
      have hpos := (OFStream.good_seekp_iff.mp hgood).2
      unfold lastPosition at hpos
      split at hpos <;> omega
    rw [OFStream.write_of_bad _ _ _ _ hbad, if_neg fun hall => hsize ⟨hall.1, hall.2.1⟩]
    exact FileSystem.files_setFile_self _ _ _

/-- All files then. -/
theorem files_preallocate_truncated {fs : FileSystem} {filePath : Path} {header : List UInt8}
    {fault : Option Nat} (h : ¬ Preallocates header fault) :
    (OFStream.preallocate ⟨filePath, 0, true⟩ (fs.setFile filePath [])
      (FileHeader.fileSize header) fault).2.files =
        (fs.setFile filePath (leftBehind header fault)).files := by
  funext path
  by_cases hpath : Path.SameFile path filePath
  · rw [FileSystem.files_congr _ hpath, files_preallocate_of_bad h, FileSystem.files_congr _ hpath,
      FileSystem.files_setFile_self]
  · rw [OFStream.files_preallocate_of_ne ⟨filePath, 0, true⟩ _ _ hpath,
      FileSystem.files_setFile_of_ne _ [] hpath, FileSystem.files_setFile_of_ne _ _ hpath]

/-! ## 3. The refusal -/

section Refusal

variable (fs : FileSystem) (m : FileTransferManager) (targetDir : Path) (header : List UInt8)
  (faults : ReceiveFaults)

/-- The receive directory is missing and cannot be made. -/
def NoDirectory : Prop := fs.exists? targetDir = false ∧ faults.createDirectories = true

/-- **The ways a reception is refused**, with the files each of them leaves: nothing was done yet;
    or, with the receive directory there, the backup was made; or the file was truncated too. -/
inductive Refused : (Path → Option (List UInt8)) → Prop where
  | directory (h : NoDirectory fs targetDir faults) : Refused fs.files
  | file (fs₁ : FileSystem)
      (hdir : fs.ensureDirectory targetDir faults.createDirectories = some fs₁)
      (hopen : faults.openFile = true) :
      Refused (fs₁.backup (receivePath targetDir header) faults.rename).files
  | space (fs₁ : FileSystem)
      (hdir : fs.ensureDirectory targetDir faults.createDirectories = some fs₁)
      (hopen : faults.openFile = false) (hspace : ¬ Preallocates header faults.preallocate) :
      Refused ((fs₁.backup (receivePath targetDir header) faults.rename).setFile
        (receivePath targetDir header) (leftBehind header faults.preallocate)).files

theorem isNone_ensureDirectory_iff :
    fs.ensureDirectory targetDir faults.createDirectories = none ↔
      NoDirectory fs targetDir faults := by
  unfold FileSystem.ensureDirectory NoDirectory
  cases fs.exists? targetDir <;> cases faults.createDirectories <;> simp

/-- **What StartFileReceive comes to**: it accepts, or it is refused in one of the ways. -/
theorem startFileReceive_outcome :
    ((startFileReceive fs m targetDir header faults).1 = true ∧ faults.openFile = false ∧
        Preallocates header faults.preallocate) ∨
      ((startFileReceive fs m targetDir header faults).1 = false ∧
        Refused fs targetDir header faults
          (startFileReceive fs m targetDir header faults).2.1.files) := by
  cases hdir : fs.ensureDirectory targetDir faults.createDirectories with
  | none =>
      have e : startFileReceive fs m targetDir header faults = (false, fs, m) := by
        unfold startFileReceive
        dsimp only
        rw [hdir]
      rw [e]
      exact .inr ⟨rfl, .directory ((isNone_ensureDirectory_iff fs targetDir faults).mp hdir)⟩
  | some fs₁ =>
      cases hopen : faults.openFile with
      | true =>
          have e : startFileReceive fs m targetDir header faults =
              (false, fs₁.backup (receivePath targetDir header) faults.rename, m) := by
            unfold startFileReceive
            dsimp only
            rw [hdir, hopen]
            rfl
          rw [e]
          exact .inr ⟨rfl, .file fs₁ hdir hopen⟩
      | false =>
          have hgood := good_preallocate_truncated
            ((fs₁.backup (receivePath targetDir header) faults.rename).setFile
              (receivePath targetDir header) [])
            (receivePath targetDir header) header faults.preallocate
          unfold startFileReceive
          dsimp only
          rw [hdir, hopen]
          dsimp only
          rw [if_neg Bool.false_ne_true]
          by_cases hspace : Preallocates header faults.preallocate
          · rw [hgood.mpr hspace, Bool.not_true, if_neg Bool.false_ne_true]
            exact .inl ⟨rfl, rfl, hspace⟩
          · rw [Bool.eq_false_iff.mpr fun hg => hspace (hgood.mp hg), Bool.not_false, if_pos rfl]
            refine .inr ⟨rfl, ?_⟩
            dsimp only
            rw [files_preallocate_truncated hspace]
            exact .space fs₁ hdir hopen hspace

/-! ## 4. What it leaves as it was -/

/-- The file `path`, where there was one, is there with its content. -/
def Keeps (files files' : Path → Option (List UInt8)) (path : Path) : Prop :=
  ∀ content, files path = some content → files' path = some content

/-- **Nothing is lost by a refusal**: the transfers are as they were, and so are the file of the
    name and its backup. -/
def RefusalHarmless : Prop :=
  (startFileReceive fs m targetDir header faults).1 = false →
    (startFileReceive fs m targetDir header faults).2.2.transfers = m.transfers ∧
      ∀ path ∈ [receivePath targetDir header, bakPath (receivePath targetDir header)],
        Keeps fs.files (startFileReceive fs m targetDir header faults).2.1.files path

/-- **The receptions whose refusal does no harm**: there is no file to lose, or nothing was done
    to it before the refusal, or there is no refusal, or the file held just what the refusal
    leaves, and so did its backup if that was replaced. -/
def SafeRefusal : Prop :=
  fs.files (receivePath targetDir header) = none ∨
    NoDirectory fs targetDir faults ∨
    faults.openFile = true ∧ faults.rename = true ∨
    faults.openFile = false ∧
      (Preallocates header faults.preallocate ∨
        fs.files (receivePath targetDir header) = some (leftBehind header faults.preallocate) ∧
          (faults.rename = true ∨ fs.files (bakPath (receivePath targetDir header)) = none ∨
            fs.files (bakPath (receivePath targetDir header)) =
              some (leftBehind header faults.preallocate)))

/-- A refusal never touches the map of transfers. -/
theorem transfers_of_refused (h : (startFileReceive fs m targetDir header faults).1 = false) :
    (startFileReceive fs m targetDir header faults).2.2 = m := by
  rcases startFileReceive_cases fs m targetDir header faults with ⟨-, e⟩ | ⟨htrue, -⟩
  · exact e
  · rw [h] at htrue
    nomatch htrue

variable {fs targetDir header faults}

section Kept

variable {fs₁ : FileSystem} {filePath : Path} {rename : Bool} {content left : List UInt8}

/-- The backup leaves the file in place if it could not be moved. -/
theorem keeps_backup_iff (hfiles : fs₁.files = fs.files)
    (hfile : fs.files filePath = some content) :
    Keeps fs.files (fs₁.backup filePath rename).files filePath ↔ rename = true := by
  cases rename with
  | true =>
      rw [FileSystem.backup_of_fails, hfiles]
      exact iff_of_true (fun _ h => h) rfl
  | false =>
      obtain ⟨hgone, -⟩ := FileSystem.files_backup_of_some (hfiles ▸ hfile)
      refine iff_of_false (fun h => ?_) Bool.false_ne_true
      have hkept := h content hfile
      rw [hgone] at hkept
      exact absurd hkept nofun

/-- The old backup is kept if there was none, or the file could not be moved, or both held the
    same. -/
theorem keeps_bakPath_iff (hfiles : fs₁.files = fs.files)
    (hfile : fs.files filePath = some content) :
    Keeps fs.files (fs₁.backup filePath rename).files (bakPath filePath) ↔
      rename = true ∨ fs.files (bakPath filePath) = none ∨
        fs.files (bakPath filePath) = some content := by
  unfold Keeps
  cases rename with
  | true =>
      rw [FileSystem.backup_of_fails, hfiles]
      exact iff_of_true (fun _ h => h) (.inl rfl)
  | false =>
      obtain ⟨-, hmoved⟩ := FileSystem.files_backup_of_some (hfiles ▸ hfile)
      rw [hmoved]
      cases hbak : fs.files (bakPath filePath) with
      | none => simp
      | some old => simp [eq_comm]

/-- What is kept where the file was truncated. -/
theorem keeps_truncated_iff (hfiles : fs₁.files = fs.files)
    (hfile : fs.files filePath = some content) :
    (∀ path ∈ [filePath, bakPath filePath],
        Keeps fs.files ((fs₁.backup filePath rename).setFile filePath left).files path) ↔
      content = left ∧ (rename = true ∨ fs.files (bakPath filePath) = none ∨
        fs.files (bakPath filePath) = some content) := by
  rw [List.forall_mem_cons, List.forall_mem_singleton, ← keeps_bakPath_iff hfiles hfile]
  refine and_congr ?_ ?_
  · unfold Keeps
    rw [FileSystem.files_setFile_self, hfile]
    simp [eq_comm]
  · unfold Keeps
    rw [FileSystem.files_setFile_of_ne _ _ (not_sameFile_bakPath filePath)]

end Kept

variable (fs targetDir header faults)

/-- Without a file of the name there is nothing to lose. -/
theorem keeps_of_none {files : Path → Option (List UInt8)}
    (hfile : fs.files (receivePath targetDir header) = none)
    (h : Refused fs targetDir header faults files) :
    ∀ path ∈ [receivePath targetDir header, bakPath (receivePath targetDir header)],
      Keeps fs.files files path := by
  rw [List.forall_mem_cons, List.forall_mem_singleton]
  refine ⟨fun content hcontent => ?_, fun content hcontent => ?_⟩
  · rw [hfile] at hcontent
    exact absurd hcontent nofun
  · have hbackup : ∀ {fs₁ : FileSystem},
        fs.ensureDirectory targetDir faults.createDirectories = some fs₁ →
        (fs₁.backup (receivePath targetDir header) faults.rename).files
          (bakPath (receivePath targetDir header)) = some content := by
      intro fs₁ hdir
      have hfiles := FileSystem.files_ensureDirectory hdir
      exact FileSystem.files_backup_of_none _ (hfiles ▸ hfile) (hfiles ▸ hcontent)
    cases h with
    | directory h => exact hcontent
    | file fs₁ hdir hopen => exact hbackup hdir
    | space fs₁ hdir hopen hspace =>
        rw [FileSystem.files_setFile_of_ne _ _ (not_sameFile_bakPath _)]
        exact hbackup hdir

/-- **A refusal does no harm just under `SafeRefusal`.** -/
theorem refusal_harmless_iff :
    RefusalHarmless fs m targetDir header faults ↔ SafeRefusal fs targetDir header faults := by
  unfold RefusalHarmless SafeRefusal
  obtain ⟨htrue, hopen, hspace⟩ | ⟨hfalse, hrefused⟩ :=
    startFileReceive_outcome fs m targetDir header faults
  · -- no refusal
    refine iff_of_true (fun h => ?_) (.inr (.inr (.inr ⟨hopen, .inl hspace⟩)))
    rw [htrue] at h
    exact absurd h (by decide)
  · have hmap := congrArg FileTransferManager.transfers
      (transfers_of_refused fs m targetDir header faults hfalse)
    generalize (startFileReceive fs m targetDir header faults).2.1.files = files at hrefused ⊢
    simp only [hfalse, hmap, true_and, true_imp_iff]
    have hmade : ∀ {fs₁ : FileSystem},
        fs.ensureDirectory targetDir faults.createDirectories = some fs₁ →
        ¬ NoDirectory fs targetDir faults := by
      intro fs₁ hdir h
      rw [(isNone_ensureDirectory_iff fs targetDir faults).mpr h] at hdir
      exact absurd hdir nofun
    cases hfile : fs.files (receivePath targetDir header) with
    | none => exact iff_of_true (keeps_of_none fs targetDir header faults hfile hrefused) (.inl rfl)
    | some content =>
        simp only [reduceCtorEq, false_or, Option.some.injEq]
        cases hrefused with
        | directory h => exact iff_of_true (fun _ _ _ h => h) (.inl h)
        | file fs₁ hdir hopen =>
            have hfiles := FileSystem.files_ensureDirectory hdir
            rw [List.forall_mem_cons, List.forall_mem_singleton, keeps_backup_iff hfiles hfile,
              keeps_bakPath_iff hfiles hfile]
            simp only [hmade hdir, hopen, false_or, true_and, Bool.true_eq_false, false_and,
              or_false]
            exact and_iff_left_of_imp .inl
        | space fs₁ hdir hopen hspace =>
            rw [keeps_truncated_iff (FileSystem.files_ensureDirectory hdir) hfile]
            simp only [hmade hdir, hopen, hspace, false_or, true_and, Bool.false_eq_true,
              false_and]
            refine and_congr_right fun e => ?_
            rw [e]

/-- **Where the backup could be made, the content is still there**: in place, or under the name of
    the backup. -/
theorem content_survives {content : List UInt8} (hrename : faults.rename = false)
    (hfile : fs.files (receivePath targetDir header) = some content)
    (hfalse : (startFileReceive fs m targetDir header faults).1 = false) :
    ∃ path ∈ [receivePath targetDir header, bakPath (receivePath targetDir header)],
      (startFileReceive fs m targetDir header faults).2.1.files path = some content := by
  have hbak : ∀ {fs₁ : FileSystem},
      fs.ensureDirectory targetDir faults.createDirectories = some fs₁ →
      (fs₁.backup (receivePath targetDir header) faults.rename).files
        (bakPath (receivePath targetDir header)) = some content := by
    intro fs₁ hdir
    rw [hrename]
    exact (FileSystem.files_backup_of_some (FileSystem.files_ensureDirectory hdir ▸ hfile)).2
  rcases startFileReceive_outcome fs m targetDir header faults with ⟨htrue, -, -⟩ | ⟨-, hrefused⟩
  · rw [hfalse] at htrue
    exact absurd htrue (by decide)
  · generalize (startFileReceive fs m targetDir header faults).2.1.files = files at hrefused ⊢
    cases hrefused with
    | directory h => exact ⟨_, List.mem_cons_self .., hfile⟩
    | file fs₁ hdir hopen =>
        exact ⟨_, List.mem_cons_of_mem _ (List.mem_singleton_self _), hbak hdir⟩
    | space fs₁ hdir hopen hspace =>
        refine ⟨_, List.mem_cons_of_mem _ (List.mem_singleton_self _), ?_⟩
        rw [FileSystem.files_setFile_of_ne _ _ (not_sameFile_bakPath _)]
        exact hbak hdir

end Refusal

/-! ## 5. A request for no bytes -/

/-- A request for `x`, of no bytes. -/
def emptyRequest : List UInt8 := [0x18, 0x01, 0x64, 0x00, 0x78] ++ List.replicate 275 0

/-- The receive directory `d` with a file `x` in it. -/
def oneFile : FileSystem := FileSystem.empty.setFile (receivePath [0x64] emptyRequest) [1]

/-- **A request for no bytes loses the file**: it is refused, once the file is renamed and
    truncated. -/
theorem refusal_harmful : ¬ RefusalHarmless oneFile .new [0x64] emptyRequest .none := by
  intro h
  have hkept := (h (by decide)).2 _ (List.mem_cons_self ..) [1] (by decide)
  exact absurd hkept (by decide)

end ServerCore
