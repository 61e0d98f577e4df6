/-
  File:      ServerCore/FileReceive.lean
  Subject:   FileTransferManager (FileTransfer.cpp), the receiving side: StartFileReceive,
             ProcessFileChunk, and the dispatch of FilePacketSession.

  A chunk packet says which chunk it is but not of which transfer: ProcessFileChunk takes the
  context of the largest id. What may fail in the file system is a record of faults, one field for
  each operation whose failure the code looks at.
-/
import ServerCore.FileTransfer

namespace ServerCore

open Seg

/-! ## 1. StartFileReceive -/

/-- What may fail in `StartFileReceive`. -/
structure ReceiveFaults where
  createDirectories : Bool
  rename : Bool
  openFile : Bool
  preallocate : Option Nat
  deriving DecidableEq, Repr

/-- Nothing fails. -/
def ReceiveFaults.none : ReceiveFaults := ⟨false, false, false, .none⟩

/-- `FileTransferManager::DEFAULT_CHUNK_SIZE` -/
def defaultChunkSize : Nat := 4 * 1024

/-- `fileSize - 1` in 64 bits -/
def lastPosition (fileSize : Nat) : Nat := if fileSize = 0 then 2 ^ 64 - 1 else fileSize - 1

/-- `file.seekp(fileSize - 1); file.put(0); file.flush();` -/
def OFStream.preallocate (file : OFStream) (fs : FileSystem) (fileSize : Nat)
    (fault : Option Nat) : OFStream × FileSystem :=
  (file.seekp (lastPosition fileSize)).put0 fs fault

/-- `fs::create_directories(dir, ec)` where `dir` does not exist; `none`: it failed. -/
def FileSystem.ensureDirectory (fs : FileSystem) (dir : Path) (fails : Bool) : Option FileSystem :=
  if fs.exists? dir then some fs
  else if fails then none
  else some (fs.createDirectories dir)

/-- The directory may be new, but no file is. -/
theorem FileSystem.files_ensureDirectory {fs fs' : FileSystem} {dir : Path} {fails : Bool}
    (h : fs.ensureDirectory dir fails = some fs') : fs'.files = fs.files := by
  unfold FileSystem.ensureDirectory at h
  split at h
  · obtain rfl := Option.some.inj h
    rfl
  · split at h
    · nomatch h
    · obtain rfl := Option.some.inj h
      rfl

theorem FileSystem.exists_ensureDirectory (fs : FileSystem) (dir : Path) :
    ∃ fs', fs.ensureDirectory dir false = some fs' := by
  unfold FileSystem.ensureDirectory
  split
  · exact ⟨_, rfl⟩
  · exact ⟨_, rfl⟩

/-- `targetDir + "/" + filename` -/
def receivePath (targetDir : Path) (header : List UInt8) : Path :=
  targetDir ++ 0x2F :: FileHeader.filename header

/-- An existing file is renamed to `.bak`; where that fails, the code goes on. -/
def FileSystem.backup (fs : FileSystem) (filePath : Path) (fails : Bool) : FileSystem :=
  if fs.exists? filePath && !fails then fs.rename filePath (filePath ++ Path.ofString ".bak")
  else fs

/-- The context `StartFileReceive` creates. -/
def FileTransferContext.receiving (filePath : Path) (header : List UInt8) :
    FileTransferContext where
  filePath
  fileStream := false
  fileSize := FileHeader.fileSize header
  bytesSent := 0
  chunkSize := defaultChunkSize
  chunksTotal := FileHeader.chunksTotal header
  chunksSent := 0
  isCompleted := false

/-- `StartFileReceive(targetDir, header)`: what it returns, and the file system and the manager
    afterwards. -/
def startFileReceive (fs : FileSystem) (m : FileTransferManager) (targetDir : Path)
    (header : List UInt8) (faults : ReceiveFaults) : Bool × FileSystem × FileTransferManager :=
  let filePath := receivePath targetDir header
  match fs.ensureDirectory targetDir faults.createDirectories with
  | none => (false, fs, m)
  | some fs =>
      let fs := fs.backup filePath faults.rename
      if faults.openFile then (false, fs, m)
      else
        -- `std::ios::trunc`
        let fs := fs.setFile filePath []
        let (file, fs) := OFStream.preallocate ⟨filePath, 0, true⟩ fs (FileHeader.fileSize header)
          faults.preallocate
        if !file.good then (false, fs, m)
        else (true, fs, m.bump.setContext m.nextConnectionId (.receiving filePath header))

/-! ## 2. ProcessFileChunk -/

/-- What may fail in `ProcessFileChunk`; `size`: `fs::file_size` reports an error; `late`: the
    failure of the write shows at `flush()`, behind the test of the stream. -/
structure ChunkFaults where
  createDirectories : Bool
  openExisting : Bool
  openTruncated : Bool
  openAlternative : Bool
  size : Bool
  preallocate : Option Nat
  write : Option Nat
  late : Bool
  deriving DecidableEq, Repr

/-- Nothing fails. -/
def ChunkFaults.none : ChunkFaults := ⟨false, false, false, false, false, .none, .none, false⟩

/-- `dirPath + "/received_" + std::to_string(std::time(nullptr)) + ".bin"` -/
def alternativePath (dirPath : Path) (time : Nat) : Path :=
  dirPath ++ Path.ofString "/received_" ++ Path.ofString (toString time) ++ Path.ofString ".bin"

/-- The file of the context opened in place, else truncated, else the alternative, which then
    becomes the file of the context. `none`: all attempts failed. -/
def openForChunk (fs : FileSystem) (context : FileTransferContext) (dirPath : Path) (time : Nat)
    (faults : ChunkFaults) : Option (OFStream × FileSystem × FileTransferContext) :=
  if (fs.files context.filePath).isSome && !faults.openExisting then
    some (⟨context.filePath, 0, true⟩, fs, context)
  else if !faults.openTruncated then
    some (⟨context.filePath, 0, true⟩, fs.setFile context.filePath [], context)
  else if !faults.openAlternative then
    let altPath := alternativePath dirPath time
    some (⟨altPath, 0, true⟩, fs.setFile altPath [], { context with filePath := altPath })
  else none

/-- The directory of a file is made where it does not exist; `none`: it failed. A file that was
    sent may have been given without a directory, and the empty path neither exists nor can be
    made. -/
def FileSystem.ensureParent (fs : FileSystem) (dirPath : Path) (fails : Bool) :
    Option FileSystem :=
  if dirPath.isEmpty then none else fs.ensureDirectory dirPath fails

theorem FileSystem.ensureParent_eq_some {fs fs' : FileSystem} {dirPath : Path} {fails : Bool} :
    fs.ensureParent dirPath fails = some fs' ↔
      dirPath ≠ [] ∧ fs.ensureDirectory dirPath fails = some fs' := by
  unfold ensureParent
  split
  · rename_i hempty
    exact iff_of_false nofun fun h => h.1 (List.isEmpty_iff.mp hempty)
  · rename_i hempty
    exact ⟨fun h => ⟨fun e => hempty (List.isEmpty_iff.mpr e), h⟩, fun h => h.2⟩

theorem FileSystem.files_ensureParent {fs fs' : FileSystem} {dirPath : Path} {fails : Bool}
    (h : fs.ensureParent dirPath fails = some fs') : fs'.files = fs.files :=
  files_ensureDirectory (ensureParent_eq_some.mp h).2

/-- `chunkId * chunkSize` in 64 bits -/
def chunkOffset (chunk : FileChunk) (context : FileTransferContext) : Nat :=
  u64 (chunk.chunkId * context.chunkSize)

/-- The file is grown to its full length where it is shorter, and the data written at the offset
    of the chunk. -/
def writeChunk (file : OFStream) (fs : FileSystem) (context : FileTransferContext)
    (chunk : FileChunk) (faults : ChunkFaults) : OFStream × FileSystem :=
  let grown :=
    if !faults.size && ((fs.files context.filePath).getD []).length < context.fileSize then
      file.preallocate fs context.fileSize faults.preallocate
    else (file, fs)
  (grown.1.seekp (chunkOffset chunk context)).write grown.2 (chunk.data.take chunk.chunkSize)
    faults.write faults.late

/-- `chunksSent++; bytesSent += chunk.chunkSize;` -/
def FileTransferContext.received (c : FileTransferContext) (chunk : FileChunk) :
    FileTransferContext :=
  { c with
    chunksSent := u32 (c.chunksSent + 1)
    bytesSent := u64 (c.bytesSent + chunk.chunkSize) }

/-- `ProcessFileChunk` once the stream is open: the write and the progress of the context. -/
def storeChunk (m : FileTransferManager) (key : Nat) (file : OFStream) (fs : FileSystem)
    (context : FileTransferContext) (chunk : FileChunk) (faults : ChunkFaults) :
    Bool × FileSystem × FileTransferManager × List TransferEvent :=
  let (file, fs) := writeChunk file fs context chunk faults
  if !file.good then (false, fs, m.setContext key context, [])
  else
    let context := context.received chunk
    if chunk.isLast || context.chunksSent ≥ context.chunksTotal then
      (true, fs, m.setContext key { context with isCompleted := true },
        [.complete key true context.filePath])
    else (true, fs, m.setContext key context, [])

/-- `ProcessFileChunk(chunk, data)` at the second `time`: what it returns, the file system and the
    manager afterwards, and its events. -/
def processFileChunk (fs : FileSystem) (m : FileTransferManager) (chunk : FileChunk) (time : Nat)
    (faults : ChunkFaults) : Bool × FileSystem × FileTransferManager × List TransferEvent :=
  match m.transfers.rbegin? with
  | none => (false, fs, m, [])
  | some (key, context) =>
      let dirPath := Path.parentPath context.filePath
      match fs.ensureParent dirPath faults.createDirectories with
      | none => (false, fs, m, [])
      | some fs =>
          match openForChunk fs context dirPath time faults with
          | none => (false, fs, m, [])
          | some (file, fs, context) => storeChunk m key file fs context chunk faults

/-! ## 3. FilePacketSession -/

/-- `FilePacketSession`: the file system it writes to, its manager and its directory. -/
structure FilePacketSession where
  fs : FileSystem
  fileTransferManager : FileTransferManager
  fileReceiveDirectory : Path

/-- What may fail while a packet is handled, and the time. -/
structure Surroundings where
  request : ReceiveFaults
  chunk : ChunkFaults
  time : Nat
  deriving DecidableEq, Repr

/-- Nothing fails, at the second 0. -/
def Surroundings.calm : Surroundings := ⟨.none, .none, 0⟩

/-- `header->id` -/
def packetId (p : List UInt8) : Nat := LittleEndian.readLe p 2 2

/-- `HandleFileRequest(buffer)` -/
def FilePacketSession.handleFileRequest (s : FilePacketSession) (p : List UInt8)
    (env : Surroundings) : FilePacketSession :=
  let r := startFileReceive s.fs s.fileTransferManager s.fileReceiveDirectory p env.request
  { s with fs := r.2.1, fileTransferManager := r.2.2 }

/-- `HandleFileChunk(buffer)` -/
def FilePacketSession.handleFileChunk (s : FilePacketSession) (p : List UInt8)
    (env : Surroundings) : FilePacketSession :=
  let r := processFileChunk s.fs s.fileTransferManager (.read p) env.time env.chunk
  { s with fs := r.2.1, fileTransferManager := r.2.2.1 }

/-- `OnRecvPacket(buffer, len)`: every other packet is only logged. -/
def FilePacketSession.onRecvPacket (s : FilePacketSession) (p : List UInt8)
    (env : Surroundings) : FilePacketSession :=
  if packetId p = fileTransferRequest then s.handleFileRequest p env
  else if packetId p = fileDataChunk then s.handleFileChunk p env
  else s

theorem FilePacketSession.onRecvPacket_request (s : FilePacketSession) {p : List UInt8}
    (env : Surroundings) (hp : packetId p = fileTransferRequest) :
    s.onRecvPacket p env = s.handleFileRequest p env := by
  unfold onRecvPacket
  rw [if_pos hp]

theorem FilePacketSession.onRecvPacket_chunk (s : FilePacketSession) {p : List UInt8}
    (env : Surroundings) (hp : packetId p = fileDataChunk) :
    s.onRecvPacket p env = s.handleFileChunk p env := by
  unfold onRecvPacket
  rw [if_neg (by rw [hp]; decide), if_pos hp]

end ServerCore
