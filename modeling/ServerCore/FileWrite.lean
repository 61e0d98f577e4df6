/-
  File:      ServerCore/FileWrite.lean
  Subject:   What ProcessFileChunk does with a chunk: which file it opens, what it writes there and
             where, and what becomes of the context.

  `chunkWrite` is the call of `file.write`, where there is one: to the file `chunkPath`, of the data
  of the chunk, at its offset. Whether there is one depends on the context of the largest id, on
  what fails, and on the file (`CanOpen`, `CanWrite`, `exists_chunkWrite_iff`); whether the chunk
  is accepted depends on the device besides (`Accepts`). What reaches the device is in the file
  (`written_of_chunkWrite`), and no other file changes (`processFileChunk_files`).
-/
import ServerCore.FileContent

namespace ServerCore

open Seg

/-! ## 1. Streams -/

/-- What is stored is read back at its place. -/
theorem OFStream.slice_stored (content : List UInt8) (pos : Nat) (bytes : List UInt8) :
    slice (OFStream.stored content pos bytes) pos bytes.length = bytes := by
  unfold OFStream.stored
  split
  · rename_i he
    rw [List.isEmpty_iff.mp he]
    exact slice_zero content pos
  · exact slice_patch_self 0 content pos bytes

/-- A position that a good stream was set to. -/
theorem OFStream.pos_seekp_of_good {s : OFStream} {pos : Nat} (h : (s.seekp pos).good = true) :
    (s.seekp pos).pos = pos := by
  unfold OFStream.seekp at h ⊢
  split at h
  · rename_i hok
    rw [if_pos hok]
  · nomatch h

/-- A write to a good stream is what becomes of its file. -/
theorem OFStream.files_write {s : OFStream} (fs : FileSystem) (bytes : List UInt8)
    (fault : Option Nat) (late : Bool) (h : s.good = true) :
    (s.write fs bytes fault late).2.files s.path =
      some (OFStream.stored ((fs.files s.path).getD []) s.pos (OFStream.reached bytes fault)) := by
  unfold OFStream.write
  rw [if_pos h]
  exact FileSystem.files_setFile_self _ _ _

/-- A stream that has gone bad ignores the write. -/
theorem OFStream.write_of_bad {s : OFStream} (fs : FileSystem) (bytes : List UInt8)
    (fault : Option Nat) (late : Bool) (h : s.good = false) :
    s.write fs bytes fault late = (s, fs) := by
  unfold OFStream.write
  rw [h, if_neg Bool.false_ne_true]

theorem OFStream.good_seekp_iff {s : OFStream} {pos : Nat} :
    (s.seekp pos).good = true ↔ s.good = true ∧ pos < 2 ^ 63 := by
  unfold OFStream.seekp
  split
  · rename_i hok
    exact iff_of_true hok.1 hok
  · rename_i hbad
    exact iff_of_false Bool.false_ne_true hbad

theorem OFStream.good_write_iff {s : OFStream} {fs : FileSystem} {bytes : List UInt8}
    {fault : Option Nat} {late : Bool} :
    (s.write fs bytes fault late).1.good = true ↔
      s.good = true ∧ (fault = none ∨ late = true) := by
  unfold OFStream.write
  split
  · rename_i hgood
    cases fault <;> simp [hgood]
  · rename_i hbad
    exact iff_of_false hbad fun h => hbad h.1

/-- A file can be grown to `n` bytes if its last position is one and the device works. -/
theorem OFStream.good_preallocate_iff {path : Path} {fs : FileSystem} {n : Nat}
    {fault : Option Nat} :
    (OFStream.preallocate ⟨path, 0, true⟩ fs n fault).1.good = true ↔
      1 ≤ n ∧ n ≤ 2 ^ 63 ∧ fault = none := by
  unfold OFStream.preallocate OFStream.put0 lastPosition
  rw [OFStream.good_write_iff, OFStream.good_seekp_iff]
  split
  · rename_i h0
    refine iff_of_false (fun h => absurd h.1.2 (by decide)) fun h => ?_
    omega
  · rename_i h0
    simp only [true_and, Bool.false_eq_true, or_false, ← and_assoc]
    exact and_congr_left fun _ => by omega

/-- No other file is touched when a file is grown. -/
theorem OFStream.files_preallocate_of_ne (file : OFStream) {fs : FileSystem} {q : Path} (n : Nat)
    (fault : Option Nat) (h : ¬ Path.SameFile q file.path) :
    (file.preallocate fs n fault).2.files q = fs.files q := by
  unfold OFStream.preallocate OFStream.put0
  exact OFStream.files_write_of_ne _ fs [0] fault false (by rwa [OFStream.path_seekp])

/-! ## 2. The file of a chunk -/

/-- The file of the context can neither be opened in place nor truncated, and the alternative
    can. -/
def fallsBack (fs : FileSystem) (context : FileTransferContext) (faults : ChunkFaults) : Bool :=
  !((fs.files context.filePath).isSome && !faults.openExisting) && faults.openTruncated &&
    !faults.openAlternative

/-- **The file that a chunk at the second `time` goes to**: the one of the context, or the
    alternative where it falls back on that. -/
def chunkPath (fs : FileSystem) (context : FileTransferContext) (time : Nat)
    (faults : ChunkFaults) : Path :=
  if fallsBack fs context faults then
    alternativePath (Path.parentPath context.filePath) time
  else context.filePath

theorem chunkPath_cases (fs : FileSystem) (context : FileTransferContext) (time : Nat)
    (faults : ChunkFaults) : chunkPath fs context time faults = context.filePath ∨
      chunkPath fs context time faults =
        alternativePath (Path.parentPath context.filePath) time := by
  unfold chunkPath
  split
  · exact .inr rfl
  · exact .inl rfl

/-- The length of the file of the context once it is opened: what cannot be opened in place is
    opened anew. -/
def openedLength (fs : FileSystem) (context : FileTransferContext) (faults : ChunkFaults) : Nat :=
  if (fs.files context.filePath).isSome && !faults.openExisting then
    ((fs.files context.filePath).getD []).length
  else 0

/-- What is opened does not depend on the directories. -/
theorem chunkPath_congr {fs fs' : FileSystem} (h : fs'.files = fs.files)
    (context : FileTransferContext) (time : Nat) (faults : ChunkFaults) :
    chunkPath fs' context time faults = chunkPath fs context time faults := by
  unfold chunkPath fallsBack
  rw [h]

theorem openedLength_congr {fs fs' : FileSystem} (h : fs'.files = fs.files)
    (context : FileTransferContext) (faults : ChunkFaults) :
    openedLength fs' context faults = openedLength fs context faults := by
  unfold openedLength
  rw [h]

/-- **Opening the file for a chunk**: a good stream at the start of the file of the chunk, which is
    the file of the context from now on. No other file changes. -/
theorem openForChunk_opened {fs fs' : FileSystem} {context context' : FileTransferContext}
    {time : Nat} {faults : ChunkFaults} {file : OFStream}
    (h : openForChunk fs context (Path.parentPath context.filePath) time faults =
      some (file, fs', context')) :
    file = ⟨context'.filePath, 0, true⟩ ∧
      context' = { context with filePath := chunkPath fs context time faults } ∧
      ((fs'.files context'.filePath).getD []).length = openedLength fs context faults ∧
      ∀ q, ¬ Path.SameFile q context'.filePath → fs'.files q = fs.files q := by
  unfold openForChunk at h
  unfold openedLength chunkPath fallsBack
  split at h
  · rename_i hin
    cases h
    rw [hin, if_pos rfl]
    exact ⟨rfl, rfl, rfl, fun _ _ => rfl⟩
  · rename_i hin
    rw [Bool.not_eq_true] at hin
    rw [hin, if_neg Bool.false_ne_true]
    split at h
    · rename_i htruncated
      cases h
      rw [Bool.not_eq_true'] at htruncated
      rw [htruncated]
      refine ⟨rfl, rfl, ?_, fun _ hne => fs.files_setFile_of_ne [] hne⟩
      rw [FileSystem.files_setFile_self]
      rfl
    · rename_i htruncated
      rw [Bool.not_eq_true, Bool.not_eq_false'] at htruncated
      split at h
      · rename_i halternative
        cases h
        rw [htruncated, halternative]
        refine ⟨rfl, rfl, ?_, fun _ hne => fs.files_setFile_of_ne [] hne⟩
        rw [FileSystem.files_setFile_self]
        rfl
      · nomatch h

theorem exists_openForChunk_iff {fs : FileSystem} {context : FileTransferContext} {dirPath : Path}
    {time : Nat} {faults : ChunkFaults} :
    (∃ r, openForChunk fs context dirPath time faults = some r) ↔
      (fs.files context.filePath).isSome = true ∧ faults.openExisting = false ∨
        faults.openTruncated = false ∨ faults.openAlternative = false := by
  unfold openForChunk
  cases (fs.files context.filePath).isSome <;> cases faults.openExisting <;>
    cases faults.openTruncated <;> cases faults.openAlternative <;> simp

/-! ## 3. The write -/

/-- The data a chunk writes. -/
def FileChunk.payload (chunk : FileChunk) : List UInt8 := chunk.data.take chunk.chunkSize

/-- What of it reaches the file. -/
def FileChunk.written (chunk : FileChunk) (faults : ChunkFaults) : List UInt8 :=
  OFStream.reached chunk.payload faults.write

/-- A call of `file.write`: the file of the stream, its put position, and the bytes. -/
structure FileWrite where
  path : Path
  offset : Nat
  bytes : List UInt8
  deriving DecidableEq, Repr

/-- The stream and the file system as `file.write` finds them: the file is grown where it is
    shorter than its full length, and the position set to the offset of the chunk. -/
def streamForWrite (file : OFStream) (fs : FileSystem) (context : FileTransferContext)
    (chunk : FileChunk) (faults : ChunkFaults) : OFStream × FileSystem :=
  let grown :=
    if !faults.size && ((fs.files context.filePath).getD []).length < context.fileSize then
      file.preallocate fs context.fileSize faults.preallocate
    else (file, fs)
  (grown.1.seekp (chunkOffset chunk context), grown.2)

/-- The stream stays at its file. -/
@[simp] theorem path_streamForWrite (file : OFStream) (fs : FileSystem)
    (context : FileTransferContext) (chunk : FileChunk) (faults : ChunkFaults) :
    (streamForWrite file fs context chunk faults).1.path = file.path := by
  unfold streamForWrite OFStream.preallocate OFStream.put0
  dsimp only
  rw [OFStream.path_seekp]
  split
  · rw [OFStream.path_write, OFStream.path_seekp]
  · rfl

theorem writeChunk_eq (file : OFStream) (fs : FileSystem) (context : FileTransferContext)
    (chunk : FileChunk) (faults : ChunkFaults) :
    writeChunk file fs context chunk faults =
      (streamForWrite file fs context chunk faults).1.write
        (streamForWrite file fs context chunk faults).2 chunk.payload faults.write faults.late :=
  rfl

/-- Only the file of the stream changes. -/
theorem files_writeChunk_of_ne (file : OFStream) (fs : FileSystem) (context : FileTransferContext)
    (chunk : FileChunk) (faults : ChunkFaults) {q : Path} (h : ¬ Path.SameFile q file.path) :
    (writeChunk file fs context chunk faults).2.files q = fs.files q := by
  rw [writeChunk_eq, OFStream.files_write_of_ne _ _ _ _ _ (by rwa [path_streamForWrite])]
  unfold streamForWrite
  dsimp only
  split
  · exact file.files_preallocate_of_ne _ _ h
  · rfl

/-- The file system after `storeChunk` is that of the write. -/
theorem fs_storeChunk (m : FileTransferManager) (key : Nat) (file : OFStream) (fs : FileSystem)
    (context : FileTransferContext) (chunk : FileChunk) (faults : ChunkFaults) :
    (storeChunk m key file fs context chunk faults).2.1 =
      (writeChunk file fs context chunk faults).2 := by
  unfold storeChunk
  dsimp only
  split
  · rfl
  · split
    · rfl
    · rfl

/-- The file that `ProcessFileChunk` opens for the context of the largest id; `none`: it returns
    before. -/
def openedFile (fs : FileSystem) (m : FileTransferManager) (time : Nat) (faults : ChunkFaults) :
    Option (Nat × OFStream × FileSystem × FileTransferContext) :=
  match m.transfers.rbegin? with
  | none => none
  | some (key, context) =>
      let dirPath := Path.parentPath context.filePath
      match fs.ensureParent dirPath faults.createDirectories with
      | none => none
      | some fs => (openForChunk fs context dirPath time faults).map fun r => (key, r)

theorem openedFile_eq_some {fs : FileSystem} {m : FileTransferManager} {time : Nat}
    {faults : ChunkFaults} {key : Nat} {r : OFStream × FileSystem × FileTransferContext} :
    openedFile fs m time faults = some (key, r) ↔
      ∃ context fs₁, m.transfers.rbegin? = some (key, context) ∧
        fs.ensureParent (Path.parentPath context.filePath) faults.createDirectories = some fs₁ ∧
        openForChunk fs₁ context (Path.parentPath context.filePath) time faults = some r := by
  unfold openedFile
  split
  · rename_i hlast
    simp [hlast]
  · rename_i key₀ context hlast
    dsimp only
    split
    · rename_i hdir
      refine iff_of_false (fun h => nomatch h) ?_
      rintro ⟨context', fs₁, hlast', hdir', -⟩
      obtain ⟨rfl, rfl⟩ := Prod.mk.inj (Option.some.inj (hlast.symm.trans hlast'))
      nomatch hdir.symm.trans hdir'
    · rename_i fs₁ hdir
      constructor
      · intro h
        obtain ⟨r', hopen, e⟩ := Option.map_eq_some_iff.mp h
        obtain ⟨rfl, rfl⟩ := Prod.mk.inj e
        exact ⟨context, fs₁, hlast, hdir, hopen⟩
      · rintro ⟨context', fs₂, hlast', hdir', hopen⟩
        obtain ⟨rfl, rfl⟩ := Prod.mk.inj (Option.some.inj (hlast.symm.trans hlast'))
        obtain rfl := Option.some.inj (hdir.symm.trans hdir')
        rw [hopen]
        rfl

/-- **What is opened**: the file of the chunk, for the context of the largest id. -/
structure OpenedFor (fs : FileSystem) (time : Nat) (faults : ChunkFaults)
    (context : FileTransferContext) (file : OFStream) (fs' : FileSystem)
    (context' : FileTransferContext) : Prop where
  file : file = ⟨context'.filePath, 0, true⟩
  moved : context' = { context with filePath := chunkPath fs context time faults }
  length : ((fs'.files context'.filePath).getD []).length = openedLength fs context faults
  others : ∀ q, ¬ Path.SameFile q context'.filePath → fs'.files q = fs.files q

theorem openedFor_of_openedFile {fs fs' : FileSystem} {m : FileTransferManager} {time id key : Nat}
    {faults : ChunkFaults} {file : OFStream} {context context' : FileTransferContext}
    (h : openedFile fs m time faults = some (key, file, fs', context'))
    (hlast : m.transfers.rbegin? = some (id, context)) :
    key = id ∧ OpenedFor fs time faults context file fs' context' := by
  obtain ⟨context₀, fs₁, hlast₀, hdir, hopen⟩ := openedFile_eq_some.mp h
  obtain ⟨rfl, rfl⟩ := Prod.mk.inj (Option.some.inj (hlast.symm.trans hlast₀))
  have hfiles := FileSystem.files_ensureParent hdir
  obtain ⟨hfile, hcontext, hlength, hothers⟩ := openForChunk_opened hopen
  rw [openedLength_congr hfiles] at hlength
  rw [chunkPath_congr hfiles] at hcontext
  exact ⟨rfl, hfile, hcontext, hlength, fun q hne =>
    (hothers q hne).trans (congrFun hfiles q)⟩

theorem processFileChunk_of_opened {fs fs' : FileSystem} {m : FileTransferManager} {time : Nat}
    {faults : ChunkFaults} {key : Nat} {file : OFStream} {context : FileTransferContext}
    (h : openedFile fs m time faults = some (key, file, fs', context)) (chunk : FileChunk) :
    processFileChunk fs m chunk time faults = storeChunk m key file fs' context chunk faults := by
  obtain ⟨context₀, fs₁, hlast, hdir, hopen⟩ := openedFile_eq_some.mp h
  unfold processFileChunk
  rw [hlast]
  dsimp only
  rw [hdir]
  dsimp only
  rw [hopen]

/-- Where it opens no file, it changes none. -/
theorem processFileChunk_of_not_opened {fs : FileSystem} {m : FileTransferManager} {time : Nat}
    {faults : ChunkFaults} (h : openedFile fs m time faults = none) (chunk : FileChunk) :
    ∃ fs', processFileChunk fs m chunk time faults = (false, fs', m, []) ∧
      fs'.files = fs.files := by
  unfold openedFile at h
  unfold processFileChunk
  cases hlast : m.transfers.rbegin? with
  | none => exact ⟨fs, rfl, rfl⟩
  | some e =>
      obtain ⟨key, context⟩ := e
      rw [hlast] at h
      dsimp only at h ⊢
      cases hdir : fs.ensureParent (Path.parentPath context.filePath)
          faults.createDirectories with
      | none => exact ⟨fs, rfl, rfl⟩
      | some fs₁ =>
          rw [hdir] at h
          dsimp only at h ⊢
          rw [Option.map_eq_none_iff.mp h]
          exact ⟨fs₁, rfl, FileSystem.files_ensureParent hdir⟩

/-- The write of `ProcessFileChunk(chunk, data)`; `none`: it returns before, or its stream has gone
    bad and ignores the write. -/
def chunkWrite (fs : FileSystem) (m : FileTransferManager) (chunk : FileChunk) (time : Nat)
    (faults : ChunkFaults) : Option FileWrite :=
  (openedFile fs m time faults).bind fun (_, file, fs, context) =>
    let file := (streamForWrite file fs context chunk faults).1
    if file.good then some ⟨file.path, file.pos, chunk.payload⟩ else none

/-- What is written is the data of the chunk, to a file that was opened for it. -/
theorem chunkWrite_eq_some {fs : FileSystem} {m : FileTransferManager} {chunk : FileChunk}
    {time : Nat} {faults : ChunkFaults} {w : FileWrite} :
    chunkWrite fs m chunk time faults = some w ↔
      ∃ key file fs' context, openedFile fs m time faults = some (key, file, fs', context) ∧
        (streamForWrite file fs' context chunk faults).1.good = true ∧
        w = ⟨(streamForWrite file fs' context chunk faults).1.path,
          (streamForWrite file fs' context chunk faults).1.pos, chunk.payload⟩ := by
  unfold chunkWrite
  rw [Option.bind_eq_some_iff]
  constructor
  · rintro ⟨⟨key, file, fs', context⟩, hopen, h⟩
    dsimp only at h
    split at h
    · rename_i hgood
      exact ⟨key, file, fs', context, hopen, hgood, (Option.some.inj h).symm⟩
    · nomatch h
  · rintro ⟨key, file, fs', context, hopen, hgood, rfl⟩
    exact ⟨_, hopen, if_pos hgood⟩

/-- **Where it is written**: in the file of the chunk, at its offset. -/
theorem chunkWrite_eq {fs : FileSystem} {m : FileTransferManager} {chunk : FileChunk}
    {time key : Nat} {faults : ChunkFaults} {context : FileTransferContext} {w : FileWrite}
    (h : chunkWrite fs m chunk time faults = some w)
    (hlast : m.transfers.rbegin? = some (key, context)) :
    w = ⟨chunkPath fs context time faults, chunkOffset chunk context, chunk.payload⟩ := by
  obtain ⟨key', file, fs', context', hopen, hgood, rfl⟩ := chunkWrite_eq_some.mp h
  obtain ⟨-, hfor⟩ := openedFor_of_openedFile hopen hlast
  have hpos : (streamForWrite file fs' context' chunk faults).1.pos =
      chunkOffset chunk context' := OFStream.pos_seekp_of_good hgood
  rw [path_streamForWrite, hpos, hfor.file]
  rw [hfor.moved]
  rfl

/-- **The file holds what reached the device.** -/
theorem written_of_chunkWrite {fs : FileSystem} {m : FileTransferManager} {chunk : FileChunk}
    {time : Nat} {faults : ChunkFaults} {w : FileWrite}
    (h : chunkWrite fs m chunk time faults = some w) :
    ∃ content, (processFileChunk fs m chunk time faults).2.1.files w.path = some content ∧
      slice content w.offset (chunk.written faults).length = chunk.written faults := by
  obtain ⟨key, file, fs', context, hopen, hgood, rfl⟩ := chunkWrite_eq_some.mp h
  rw [processFileChunk_of_opened hopen, fs_storeChunk, writeChunk_eq]
  exact ⟨_, OFStream.files_write _ _ _ _ hgood, OFStream.slice_stored _ _ _⟩

/-- **The file holds what was written**, unless the device fails. -/
theorem files_of_chunkWrite {fs : FileSystem} {m : FileTransferManager} {chunk : FileChunk}
    {time : Nat} {faults : ChunkFaults} {w : FileWrite}
    (h : chunkWrite fs m chunk time faults = some w) (hwrite : faults.write = none) :
    ∃ content, (processFileChunk fs m chunk time faults).2.1.files w.path = some content ∧
      slice content w.offset w.bytes.length = w.bytes := by
  have hwritten := written_of_chunkWrite h
  obtain ⟨key, file, fs', context, -, -, rfl⟩ := chunkWrite_eq_some.mp h
  unfold FileChunk.written at hwritten
  rwa [hwrite] at hwritten

/-- **The files a chunk leaves alone**: all but its own. -/
theorem processFileChunk_files {fs : FileSystem} {m : FileTransferManager} {chunk : FileChunk}
    {time : Nat} {faults : ChunkFaults} {path : Path}
    (h : ∀ key context, m.transfers.rbegin? = some (key, context) →
      ¬ Path.SameFile path (chunkPath fs context time faults)) :
    (processFileChunk fs m chunk time faults).2.1.files path = fs.files path := by
  cases hopened : openedFile fs m time faults with
  | none =>
      obtain ⟨fs', hprocess, hfiles⟩ := processFileChunk_of_not_opened hopened chunk
      rw [hprocess]
      exact congrFun hfiles path
  | some r =>
      obtain ⟨key, file, fs', context'⟩ := r
      obtain ⟨context, fs₁, hlast, -⟩ := openedFile_eq_some.mp hopened
      obtain ⟨-, hfor⟩ := openedFor_of_openedFile hopened hlast
      have hne : ¬ Path.SameFile path context'.filePath := by
        rw [hfor.moved]
        exact h key context hlast
      rw [processFileChunk_of_opened hopened, fs_storeChunk,
        files_writeChunk_of_ne _ _ _ _ _ (by rwa [hfor.file])]
      exact hfor.others path hne

/-! ## 4. When there is one -/

/-- **A file can be opened for the context**: its directory is there or can be made, and its file
    can be opened in place or anew, or the alternative can. -/
structure CanOpen (fs : FileSystem) (context : FileTransferContext) (faults : ChunkFaults) :
    Prop where
  parent : Path.parentPath context.filePath ≠ []
  directory : fs.exists? (Path.parentPath context.filePath) = true ∨
    faults.createDirectories = false
  opened : (fs.files context.filePath).isSome = true ∧ faults.openExisting = false ∨
    faults.openTruncated = false ∨ faults.openAlternative = false

/-- **A chunk can be written for the context**: a file can be opened, and grown where it is
    shorter, and the offset is a position. -/
structure CanWrite (fs : FileSystem) (context : FileTransferContext) (chunk : FileChunk)
    (faults : ChunkFaults) : Prop where
  canOpen : CanOpen fs context faults
  grown : faults.size = true ∨ context.fileSize ≤ openedLength fs context faults ∨
    context.fileSize ≤ 2 ^ 63 ∧ faults.preallocate = none
  offset : chunkOffset chunk context < 2 ^ 63

/-- **A chunk is accepted for the context**: it can be written, and no failure of the device shows
    before the flush. -/
structure Accepts (fs : FileSystem) (context : FileTransferContext) (chunk : FileChunk)
    (faults : ChunkFaults) : Prop where
  canWrite : CanWrite fs context chunk faults
  device : faults.write = none ∨ faults.late = true

theorem FileSystem.exists_ensureDirectory_iff {fs : FileSystem} {dir : Path} {fails : Bool} :
    (∃ fs', fs.ensureDirectory dir fails = some fs') ↔ fs.exists? dir = true ∨ fails = false := by
  unfold FileSystem.ensureDirectory
  cases fs.exists? dir with
  | true => simp
  | false => cases fails <;> simp

/-- The stream is good at the write if the file could be grown and the offset is a position. -/
theorem good_streamForWrite_iff {fs : FileSystem} {context : FileTransferContext}
    {chunk : FileChunk} {faults : ChunkFaults} :
    (streamForWrite ⟨context.filePath, 0, true⟩ fs context chunk faults).1.good = true ↔
      (faults.size = true ∨ context.fileSize ≤ ((fs.files context.filePath).getD []).length ∨
        context.fileSize ≤ 2 ^ 63 ∧ faults.preallocate = none) ∧
      chunkOffset chunk context < 2 ^ 63 := by
  unfold streamForWrite
  dsimp only
  rw [OFStream.good_seekp_iff]
  refine and_congr_left fun _ => ?_
  by_cases hsize : faults.size = true
  · rw [hsize]
    simp
  by_cases hlen : context.fileSize ≤ ((fs.files context.filePath).getD []).length
  · rw [if_neg (by simp [hlen])]
    simp [hlen]
  · rw [if_pos (by simpa [hsize] using hlen), OFStream.good_preallocate_iff]
    have h1 : 1 ≤ context.fileSize := by omega
    simp [hsize, hlen, h1]

/-- The stream that was opened for a chunk is good at the write. -/
theorem good_streamForWrite_of_opened {fs fs' : FileSystem}
    {context context' : FileTransferContext} {time : Nat} {faults : ChunkFaults} {file : OFStream}
    (hfor : OpenedFor fs time faults context file fs' context') (chunk : FileChunk) :
    (streamForWrite file fs' context' chunk faults).1.good = true ↔
      (faults.size = true ∨ context.fileSize ≤ openedLength fs context faults ∨
        context.fileSize ≤ 2 ^ 63 ∧ faults.preallocate = none) ∧
      chunkOffset chunk context < 2 ^ 63 := by
  have hsize : context'.fileSize = context.fileSize := by rw [hfor.moved]
  have hoffset : chunkOffset chunk context' = chunkOffset chunk context := by
    rw [hfor.moved]
    rfl
  rw [hfor.file, good_streamForWrite_iff, hfor.length, hsize, hoffset]

/-- **A file is opened** exactly where one can be. -/
theorem exists_openedFile_iff {fs : FileSystem} {m : FileTransferManager} {time : Nat}
    {faults : ChunkFaults} :
    (∃ r, openedFile fs m time faults = some r) ↔
      ∃ key context, m.transfers.rbegin? = some (key, context) ∧ CanOpen fs context faults := by
  constructor
  · rintro ⟨⟨key, r⟩, h⟩
    obtain ⟨context, fs₁, hlast, hmade, hopen⟩ := openedFile_eq_some.mp h
    obtain ⟨hparent, hdir⟩ := FileSystem.ensureParent_eq_some.mp hmade
    refine ⟨key, context, hlast, hparent, FileSystem.exists_ensureDirectory_iff.mp ⟨fs₁, hdir⟩, ?_⟩
    rw [← FileSystem.files_ensureDirectory hdir]
    exact exists_openForChunk_iff.mp ⟨r, hopen⟩
  · rintro ⟨key, context, hlast, hcan⟩
    obtain ⟨fs₁, hdir⟩ := FileSystem.exists_ensureDirectory_iff.mpr hcan.directory
    have hopened := hcan.opened
    rw [← FileSystem.files_ensureDirectory hdir] at hopened
    obtain ⟨r, hopen⟩ := exists_openForChunk_iff.mpr hopened
    exact ⟨(key, r), openedFile_eq_some.mpr ⟨context, fs₁, hlast,
      FileSystem.ensureParent_eq_some.mpr ⟨hcan.parent, hdir⟩, hopen⟩⟩

/-- **A write is made** exactly where one can be made for the context of the largest id. -/
theorem exists_chunkWrite_iff {fs : FileSystem} {m : FileTransferManager} {chunk : FileChunk}
    {time : Nat} {faults : ChunkFaults} :
    (∃ w, chunkWrite fs m chunk time faults = some w) ↔
      ∃ key context, m.transfers.rbegin? = some (key, context) ∧
        CanWrite fs context chunk faults := by
  constructor
  · rintro ⟨w, hw⟩
    obtain ⟨key, file, fs', context', hopened, hgood, -⟩ := chunkWrite_eq_some.mp hw
    obtain ⟨key', context, hlast, hcan⟩ := exists_openedFile_iff.mp ⟨_, hopened⟩
    obtain ⟨-, hfor⟩ := openedFor_of_openedFile hopened hlast
    obtain ⟨hgrown, hoffset⟩ := (good_streamForWrite_of_opened hfor chunk).mp hgood
    exact ⟨key', context, hlast, hcan, hgrown, hoffset⟩
  · rintro ⟨key, context, hlast, hcan⟩
    obtain ⟨⟨key', file, fs', context'⟩, hopened⟩ :=
      exists_openedFile_iff.mpr ⟨key, context, hlast, hcan.canOpen⟩
    obtain ⟨-, hfor⟩ := openedFor_of_openedFile hopened hlast
    exact ⟨_, chunkWrite_eq_some.mpr ⟨key', file, fs', context', hopened,
      (good_streamForWrite_of_opened hfor chunk).mpr ⟨hcan.grown, hcan.offset⟩, rfl⟩⟩

/-- Where nothing fails and the file is there in full length, a chunk can be written. -/
theorem canWrite_none {fs : FileSystem} {context : FileTransferContext} {chunk : FileChunk}
    {content : List UInt8} (hparent : Path.parentPath context.filePath ≠ [])
    (hfile : fs.files context.filePath = some content)
    (hlen : context.fileSize ≤ content.length) (hoffset : chunkOffset chunk context < 2 ^ 63) :
    CanWrite fs context chunk .none where
  canOpen := ⟨hparent, .inr rfl, .inr (.inl rfl)⟩
  grown := by
    refine .inr (.inl ?_)
    unfold openedLength
    rw [hfile]
    exact hlen
  offset := hoffset

/-- The request of a file of `n` bytes is accepted where nothing fails. -/
theorem exists_startFileReceive {n : Nat} (h0 : 1 ≤ n) (hn : n < 2 ^ 63) :
    ∃ request fs context, FileHeader.fileSize request = n ∧
      startFileReceive .empty .new [0x2E] request .none =
        (true, fs, FileTransferManager.new.bump.setContext 1 context) ∧
      fs.files context.filePath = some (List.replicate n 0) ∧
      Path.parentPath context.filePath ≠ [] ∧
      context.fileSize = n ∧ context.chunkSize = defaultChunkSize := by
  obtain ⟨request, -, -, hsize⟩ := exists_fileRequest hn
  obtain ⟨fs, hstart, hfile⟩ := startFileReceive_none .empty .new [0x2E] request (by omega)
    (by omega)
  rw [hsize] at hfile
  exact ⟨request, fs, _, hsize, hstart, hfile, parentPath_receivePath _ _, hsize, rfl⟩

/-! ## 5. The context -/

/-- `chunk.isLast || chunksSent >= chunksTotal`, once the chunk is counted. -/
def FileTransferContext.closedBy (context : FileTransferContext) (chunk : FileChunk) : Bool :=
  chunk.isLast || decide (u32 (context.chunksSent + 1) ≥ context.chunksTotal)

/-- The context once the chunk is written to `path` and counted. -/
def FileTransferContext.accept (context : FileTransferContext) (path : Path) (chunk : FileChunk) :
    FileTransferContext :=
  let counted := { context with filePath := path }.received chunk
  if context.closedBy chunk then { counted with isCompleted := true } else counted

theorem FileTransferContext.filePath_accept (context : FileTransferContext) (path : Path)
    (chunk : FileChunk) : (context.accept path chunk).filePath = path := by
  unfold FileTransferContext.accept
  dsimp only
  split <;> rfl

theorem FileTransferContext.fileSize_accept (context : FileTransferContext) (path : Path)
    (chunk : FileChunk) : (context.accept path chunk).fileSize = context.fileSize := by
  unfold FileTransferContext.accept
  dsimp only
  split <;> rfl

theorem FileTransferContext.chunkSize_accept (context : FileTransferContext) (path : Path)
    (chunk : FileChunk) : (context.accept path chunk).chunkSize = context.chunkSize := by
  unfold FileTransferContext.accept
  dsimp only
  split <;> rfl

theorem FileTransferContext.chunksSent_accept (context : FileTransferContext) (path : Path)
    (chunk : FileChunk) :
    (context.accept path chunk).chunksSent = u32 (context.chunksSent + 1) := by
  unfold FileTransferContext.accept
  dsimp only
  split <;> rfl

theorem FileTransferContext.isCompleted_accept (context : FileTransferContext) (path : Path)
    (chunk : FileChunk) : (context.accept path chunk).isCompleted =
      (context.isCompleted || context.closedBy chunk) := by
  unfold FileTransferContext.accept
  dsimp only
  split
  · rename_i hclosed
    rw [hclosed, Bool.or_true]
  · rename_i hclosed
    rw [Bool.eq_false_iff.mpr hclosed, Bool.or_false]
    rfl

theorem FileTransferContext.chunksTotal_accept (context : FileTransferContext) (path : Path)
    (chunk : FileChunk) : (context.accept path chunk).chunksTotal = context.chunksTotal := by
  unfold FileTransferContext.accept
  dsimp only
  split <;> rfl

/-- **What ProcessFileChunk does**: nothing to the manager, where no file is opened; fail once it
    is; or accept the chunk, with the completion callback where the chunk closes the reception. -/
inductive ChunkOutcome (fs : FileSystem) (m : FileTransferManager) (chunk : FileChunk) (time : Nat)
    (faults : ChunkFaults) : Bool × FileTransferManager × List TransferEvent → Prop where
  | refused (hnot : ∀ key context, m.transfers.rbegin? = some (key, context) →
      ¬ CanOpen fs context faults) : ChunkOutcome fs m chunk time faults (false, m, [])
  | failed (key : Nat) (context : FileTransferContext)
      (hlast : m.transfers.rbegin? = some (key, context))
      (hnot : ¬ Accepts fs context chunk faults) :
      ChunkOutcome fs m chunk time faults (false,
        m.setContext key { context with filePath := chunkPath fs context time faults }, [])
  | accepted (key : Nat) (context : FileTransferContext)
      (hlast : m.transfers.rbegin? = some (key, context))
      (haccepts : Accepts fs context chunk faults) :
      ChunkOutcome fs m chunk time faults
        (true, m.setContext key (context.accept (chunkPath fs context time faults) chunk),
          if context.closedBy chunk then
            [.complete key true (chunkPath fs context time faults)] else [])

/-- `storeChunk` once the data is written. -/
theorem storeChunk_of_good {m : FileTransferManager} {key : Nat} {file : OFStream}
    {fs : FileSystem} {context : FileTransferContext} {path : Path} {chunk : FileChunk}
    {faults : ChunkFaults}
    (hgood : (writeChunk file fs { context with filePath := path } chunk faults).1.good = true) :
    storeChunk m key file fs { context with filePath := path } chunk faults =
      (true, (writeChunk file fs { context with filePath := path } chunk faults).2,
        m.setContext key (context.accept path chunk),
        if context.closedBy chunk then [.complete key true path] else []) := by
  unfold storeChunk
  dsimp only
  rw [hgood]
  unfold FileTransferContext.accept
  by_cases hclosed : context.closedBy chunk = true
  · rw [if_pos hclosed, if_pos hclosed]
    simp only [FileTransferContext.closedBy] at hclosed
    simp [FileTransferContext.received, hclosed]
  · rw [if_neg hclosed, if_neg hclosed]
    simp only [FileTransferContext.closedBy] at hclosed
    simp [FileTransferContext.received, hclosed]

theorem processFileChunk_outcome (fs : FileSystem) (m : FileTransferManager) (chunk : FileChunk)
    (time : Nat) (faults : ChunkFaults) :
    ChunkOutcome fs m chunk time faults
      ((processFileChunk fs m chunk time faults).1, (processFileChunk fs m chunk time faults).2.2)
    := by
  cases hopened : openedFile fs m time faults with
  | none =>
      obtain ⟨fs', hprocess, -⟩ := processFileChunk_of_not_opened hopened chunk
      rw [hprocess]
      refine .refused fun key context hlast hcan => ?_
      obtain ⟨r, hr⟩ := exists_openedFile_iff.mpr ⟨key, context, hlast, hcan⟩
      nomatch hopened.symm.trans hr
  | some r =>
      obtain ⟨key, file, fs', context'⟩ := r
      obtain ⟨key', context, hlast, hcan⟩ := exists_openedFile_iff.mp ⟨_, hopened⟩
      obtain ⟨rfl, hfor⟩ := openedFor_of_openedFile hopened hlast
      have hgood := good_streamForWrite_of_opened hfor chunk
      obtain rfl := hfor.moved
      have haccepts : (writeChunk file fs' { context with
          filePath := chunkPath fs context time faults } chunk faults).1.good = true ↔
            Accepts fs context chunk faults := by
        rw [writeChunk_eq, OFStream.good_write_iff, hgood]
        exact ⟨fun h => ⟨⟨hcan, h.1.1, h.1.2⟩, h.2⟩,
          fun h => ⟨⟨h.canWrite.grown, h.canWrite.offset⟩, h.device⟩⟩
      rw [processFileChunk_of_opened hopened]
      by_cases hok : Accepts fs context chunk faults
      · rw [storeChunk_of_good (haccepts.mpr hok)]
        exact .accepted key context hlast hok
      · unfold storeChunk
        dsimp only
        rw [Bool.eq_false_iff.mpr (mt haccepts.mp hok)]
        exact .failed key context hlast hok

/-- **A chunk is accepted** exactly where it is for the context of the largest id. -/
theorem processFileChunk_iff {fs : FileSystem} {m : FileTransferManager} {chunk : FileChunk}
    {time : Nat} {faults : ChunkFaults} :
    (processFileChunk fs m chunk time faults).1 = true ↔
      ∃ key context, m.transfers.rbegin? = some (key, context) ∧
        Accepts fs context chunk faults := by
  have hout := processFileChunk_outcome fs m chunk time faults
  generalize processFileChunk fs m chunk time faults = r at hout ⊢
  obtain ⟨result, fs', m', events⟩ := r
  cases hout with
  | refused hnot =>
      refine iff_of_false Bool.false_ne_true ?_
      rintro ⟨key, context, hlast, haccepts⟩
      exact hnot key context hlast haccepts.canWrite.canOpen
  | failed key context hlast hnot =>
      refine iff_of_false Bool.false_ne_true ?_
      rintro ⟨key', context', hlast', haccepts⟩
      obtain ⟨rfl, rfl⟩ := Prod.mk.inj (Option.some.inj (hlast.symm.trans hlast'))
      exact hnot haccepts
  | accepted key context hlast haccepts => exact iff_of_true rfl ⟨key, context, hlast, haccepts⟩

/-- **Where nothing fails, a chunk is accepted** that fits into the file of its context, and is
    written there. -/
theorem processFileChunk_calm {fs : FileSystem} {m : FileTransferManager} {chunk : FileChunk}
    {context : FileTransferContext} {content : List UInt8} (time : Nat) {key : Nat}
    (hlast : m.transfers.rbegin? = some (key, context))
    (hparent : Path.parentPath context.filePath ≠ [])
    (hfile : fs.files context.filePath = some content)
    (hlen : content.length = context.fileSize) (hdata : chunk.data.length = chunk.chunkSize)
    (hfit : chunk.chunkId * context.chunkSize + chunk.chunkSize ≤ context.fileSize)
    (hsize : context.fileSize < 2 ^ 63) :
    Accepts fs context chunk .none ∧ chunkPath fs context time .none = context.filePath ∧
      ∃ fs', processFileChunk fs m chunk time .none =
          (true, fs', m.setContext key (context.accept context.filePath chunk),
            if context.closedBy chunk then [.complete key true context.filePath] else []) ∧
        fs'.files context.filePath =
          some (patch 0 content (chunk.chunkId * context.chunkSize) chunk.data) := by
  obtain ⟨fs', context', _, hrun, -, -, -, hfile'⟩ :=
    processFileChunk_none time hlast hparent hfile hlen hdata hfit hsize
  have hpath : chunkPath fs context time .none = context.filePath := by
    unfold chunkPath fallsBack
    rw [hfile]
    rfl
  have hout := processFileChunk_outcome fs m chunk time .none
  rw [hrun] at hout ⊢
  generalize hm : m.setContext key context' = m' at hout ⊢
  cases hout with
  | accepted key' context' hlast' haccepts =>
      obtain ⟨rfl, rfl⟩ := Prod.mk.inj (Option.some.inj (hlast.symm.trans hlast'))
      rw [hpath]
      exact ⟨haccepts, rfl, fs', rfl, hfile'⟩

end ServerCore
