/-
  File:      ServerCore/FileTransfer.lean
  Subject:   FileTransferManager (FileTransfer.cpp), the sending side: the packets it builds,
             StartFileSend, SendNextChunk and CancelTransfer.

  A packet is the memory of its SendBuffer: the bytes the reservation held before (`Memory`) with
  the fields stored over them at the offsets the compiler gives them, so the padding and the rest
  of `filename` are whatever was there. `sizeof(FileHeader)` is 280 and `sizeof(FileChunk)` 16.

  The calls are atomic under `_lock`. What they do besides changing the manager is a list of
  `TransferEvent`s: packets handed to `Session::Send`, calls of the completion callback, and
  detached threads that will call `SendNextChunk` again. What may fail around them (opening and
  reading the file, allocating the buffer) is an argument.
-/
import ServerCore.FileSystem
import ServerCore.Lib.LittleEndian
import ServerCore.Lib.OrdMap

namespace ServerCore

open Seg LittleEndian

/-! ## 1. Packets -/

/-- What a reservation held before it was opened, by offset. -/
abbrev Memory := Nat → UInt8

/-- The reservation of `n` bytes. -/
def Memory.reserve (mem : Memory) (n : Nat) : List UInt8 := (List.range n).map mem

@[simp] theorem Memory.length_reserve (mem : Memory) (n : Nat) : (mem.reserve n).length = n := by
  simp [Memory.reserve]

/-- Conversion to `uint64_t` -/
def u64 (n : Nat) : Nat := n % 2 ^ 64

/-- Conversion to `uint32_t` -/
def u32 (n : Nat) : Nat := n % 2 ^ 32

theorem u32_lt (n : Nat) : u32 n < 2 ^ 32 := Nat.mod_lt n (Nat.two_pow_pos 32)

/-- Conversion to `uint16_t` -/
def u16 (n : Nat) : Nat := n % 2 ^ 16

/-- `FileTransferPacketId::FileTransferRequest` -/
def fileTransferRequest : Nat := 100

/-- `FileTransferPacketId::FileDataChunk` -/
def fileDataChunk : Nat := 102

/-- `sizeof(FileHeader)` -/
def sizeofFileHeader : Nat := 280

/-- `sizeof(FileHeader::filename)` -/
def sizeofFilename : Nat := 256

/-- `sizeof(FileChunk)` -/
def sizeofFileChunk : Nat := 16

/-- `SendBufferChunk::SEND_BUFFER_CHUNK_SIZE` -/
def sendBufferChunkSize : Nat := 65536

namespace FileHeader

/-- `header.filename` as a `std::string`: the bytes before the first NUL -/
def filename (p : List UInt8) : Path := (p.drop 4).takeWhile (· != 0)

/-- `header.fileSize` -/
def fileSize (p : List UInt8) : Nat := readLe p 264 8

/-- `header.chunksTotal` -/
def chunksTotal (p : List UInt8) : Nat := readLe p 272 4

end FileHeader

/-- A chunk packet as the receiver reads it: the fields of `FileChunk` and the bytes behind it. -/
structure FileChunk where
  size : Nat
  id : Nat
  chunkId : Nat
  chunkSize : Nat
  isLast : Bool
  data : List UInt8
  deriving DecidableEq, Repr

/-- The fields of the packet `p`, and the data from `chunk + 1` on. -/
def FileChunk.read (p : List UInt8) : FileChunk where
  size := readLe p 0 2
  id := readLe p 2 2
  chunkId := readLe p 4 4
  chunkSize := readLe p 8 4
  isLast := readLe p 12 1 != 0
  data := p.drop sizeofFileChunk

/-- The number of chunks of `chunkSize` bytes, `(fileSize + chunkSize - 1) / chunkSize` in 64 bits,
    cast to 32. -/
def chunksTotal (fileSize chunkSize : Nat) : Nat :=
  u32 (u64 (fileSize + chunkSize + 2 ^ 64 - 1) / chunkSize)

/-- `CreateFileRequestPacket(filePath, fileSize, chunkSize)`; `none`: `strncpy_s` finds no room
    for the name and its NUL and ends the process. -/
def createFileRequestPacket (mem : Memory) (filePath : Path) (fileSize chunkSize : Nat) :
    Option (List UInt8) :=
  let filename := Path.filename filePath
  if filename.length < sizeofFilename then
    let p := mem.reserve sizeofFileHeader
    let p := writeLe p 0 2 sizeofFileHeader
    let p := writeLe p 2 2 fileTransferRequest
    let p := splice p 4 filename
    let p := splice p (4 + filename.length) [0]
    let p := writeLe p 264 8 fileSize
    some (writeLe p 272 4 (chunksTotal fileSize chunkSize))
  else none

/-- `CreateFileChunkPacket(data, chunkSize, chunkId, isLast)`; `none`: no packet. -/
def createFileChunkPacket (mem : Memory) (data : List UInt8) (chunkSize chunkId : Nat)
    (isLast : Bool) (allocFails : Bool) : Option (List UInt8) :=
  let packetSize := u16 (sizeofFileChunk + chunkSize)
  if packetSize > sendBufferChunkSize then none
  else if allocFails then none
  else
    let p := mem.reserve packetSize
    let p := writeLe p 0 2 packetSize
    let p := writeLe p 2 2 fileDataChunk
    let p := writeLe p 4 4 chunkId
    let p := writeLe p 8 4 chunkSize
    let p := writeLe p 12 1 (if isLast then 1 else 0)
    some (splice p sizeofFileChunk (data.take chunkSize))

/-! ## 2. The manager -/

/-- `FileTransferContext`; of the stream, whether it is open. -/
structure FileTransferContext where
  filePath : Path
  fileStream : Bool
  fileSize : Nat
  bytesSent : Nat
  chunkSize : Nat
  chunksTotal : Nat
  chunksSent : Nat
  isCompleted : Bool
  deriving DecidableEq, Repr

namespace FileTransferContext

/-- The cap of `SendNextChunk`: `SEND_BUFFER_CHUNK_SIZE - sizeof(FileChunk) - 16` -/
def maxChunkSize : Nat := sendBufferChunkSize - sizeofFileChunk - 16

/-- `fileStream.open(..)` -/
def opened (c : FileTransferContext) : FileTransferContext := { c with fileStream := true }

/-- `fileSize - bytesSent` -/
def remainingBytes (c : FileTransferContext) : Nat := u64 (c.fileSize + 2 ^ 64 - c.bytesSent)

/-- The size of the next slice: what remains, the chunk size, or the cap. -/
def currentChunkSize (c : FileTransferContext) : Nat :=
  min (min c.remainingBytes c.chunkSize) maxChunkSize

/-- `remainingBytes <= currentChunkSize` -/
def isLastChunk (c : FileTransferContext) : Bool := decide (c.remainingBytes ≤ c.currentChunkSize)

/-- `bytesSent += currentChunkSize; chunksSent++;` -/
def advance (c : FileTransferContext) : FileTransferContext :=
  { c with
    bytesSent := u64 (c.bytesSent + c.currentChunkSize)
    chunksSent := u32 (c.chunksSent + 1) }

/-- `isCompleted = true; fileStream.close();` -/
def finish (c : FileTransferContext) : FileTransferContext :=
  { c with isCompleted := true, fileStream := false }

end FileTransferContext

/-- `FileTransferManager` -/
structure FileTransferManager where
  transfers : OrdMap FileTransferContext
  nextConnectionId : Nat

/-- What a call does besides changing the manager. -/
inductive TransferEvent where
  /-- `session->Send(packet)` -/
  | send (packet : List UInt8)
  /-- `_transferCompleteCallback(connectionId, success, filePath)` -/
  | complete (connectionId : Nat) (success : Bool) (filePath : Path)
  /-- a detached thread will call `SendNextChunk(session, connectionId)` -/
  | schedule (connectionId : Nat)
  deriving DecidableEq, Repr

/-- What may fail around `SendNextChunk`. -/
structure SendFaults where
  reopen : Bool
  read : Bool
  alloc : Bool
  deriving DecidableEq, Repr

/-- Nothing fails. -/
def SendFaults.none : SendFaults := ⟨false, false, false⟩

namespace FileTransferManager

/-- The constructor. -/
def new : FileTransferManager := ⟨.empty, 1⟩

/-- `_nextConnectionId++` -/
def bump (m : FileTransferManager) : FileTransferManager :=
  { m with nextConnectionId := u32 (m.nextConnectionId + 1) }

/-- `_transfers[connectionId] = context` -/
def setContext (m : FileTransferManager) (connectionId : Nat) (context : FileTransferContext) :
    FileTransferManager :=
  { m with transfers := m.transfers.insert connectionId context }

/-- `StartFileSend(session, filePath, chunkSize)`: what it returns, the manager afterwards and its
    events; `openFails`: the file cannot be opened or measured. `none`: the process ended. -/
def startFileSend (fs : FileSystem) (m : FileTransferManager) (filePath : Path) (chunkSize : Nat)
    (mem : Memory) (openFails : Bool) : Option (Bool × FileTransferManager × List TransferEvent) :=
  match fs.files filePath with
  | none => some (false, m, [])
  | some content =>
      if openFails then some (false, m, [])
      else
        let fileSize := u64 content.length
        let context : FileTransferContext :=
          { filePath, fileStream := true, fileSize, bytesSent := 0, chunkSize,
            chunksTotal := chunksTotal fileSize chunkSize, chunksSent := 0, isCompleted := false }
        (createFileRequestPacket mem filePath fileSize chunkSize).map fun packet =>
          (true, m.bump.setContext m.nextConnectionId context, [.send packet])

/-- The context `SendNextChunk` works on: that of the id, or else that of the id 1. -/
def findTransfer (m : FileTransferManager) (connectionId : Nat) :
    Option (Nat × FileTransferContext) :=
  match m.transfers.find? connectionId with
  | some context => some (connectionId, context)
  | none => (m.transfers.find? 1).map fun context => (1, context)

/-- `SendNextChunk` from the reading of the file on, for the context of `key`. -/
def sendSlice (m : FileTransferManager) (key : Nat) (context : FileTransferContext)
    (content : List UInt8) (connectionId : Nat) (mem : Memory) (faults : SendFaults) :
    Bool × FileTransferManager × List TransferEvent :=
  let currentChunkSize := context.currentChunkSize
  let buffer := grow 0 (slice content context.bytesSent currentChunkSize) currentChunkSize
  if faults.read then (false, m.setContext key context, [])
  else
    match createFileChunkPacket mem buffer currentChunkSize context.chunksSent
      context.isLastChunk faults.alloc with
    | none => (false, m.setContext key context, [])
    | some packet =>
        if context.isLastChunk then
          (true, m.setContext key context.advance.finish,
            [.send packet, .complete connectionId true context.filePath])
        else (true, m.setContext key context.advance, [.send packet, .schedule connectionId])

/-- `SendNextChunk(session, connectionId)`: what it returns, the manager afterwards, and its
    events. The file does not change while it is read. -/
def sendNextChunk (fs : FileSystem) (m : FileTransferManager) (connectionId : Nat)
    (mem : Memory) (faults : SendFaults) : Bool × FileTransferManager × List TransferEvent :=
  match m.findTransfer connectionId with
  | none => (false, m, [])
  | some (key, context) =>
      if context.isCompleted then (true, m, [])
      else
        match fs.files context.filePath with
        | none => (false, m, [])
        | some content =>
            if !context.fileStream && faults.reopen then (false, m, [])
            else
              let context := context.opened
              if context.remainingBytes = 0 then
                (true, m.setContext key context.finish,
                  [.complete connectionId true context.filePath])
              else m.sendSlice key context content connectionId mem faults

/-- `CancelTransfer(connectionId)`: the context is erased, its stream with it. -/
def cancelTransfer (m : FileTransferManager) (connectionId : Nat) : FileTransferManager :=
  match m.transfers.find? connectionId with
  | none => m
  | some _ => { m with transfers := m.transfers.erase connectionId }

end FileTransferManager

end ServerCore
