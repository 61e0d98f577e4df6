/-
  File:      ServerCore/FileRequest.lean
  Subject:   The file request from one machine to the other: CreateFileRequestPacket on the side of
             the sender, HandleFileRequest and StartFileReceive on that of the receiver
             (FileTransfer.cpp).

  The header has 256 bytes for the name and its NUL, and 32 bits for the number of chunks; the
  sender checks neither. The receiver reads what the sender had exactly if both suffice, and, where
  nothing fails, enters it exactly if the file is not empty either (`file_request_law`).
-/
import ServerCore.FileContent
import ServerCore.FileRefusal

namespace ServerCore

open Seg LittleEndian

/-! ## 1. The packet -/

/-- **The packet is as long as its header**: every store was inside. -/
theorem length_createFileRequestPacket {mem : Memory} {filePath : Path} {fileSize chunkSize : Nat}
    {p : List UInt8} (hp : createFileRequestPacket mem filePath fileSize chunkSize = some p) :
    p.length = sizeofFileHeader := by
  unfold createFileRequestPacket at hp
  simp only at hp
  split at hp
  case isFalse => nomatch hp
  case isTrue hname =>
  have h256 : sizeofFilename = 256 := rfl
  have h280 : sizeofFileHeader = 280 := rfl
  obtain rfl := Option.some.inj hp
  have hstore : ∀ (i : Nat) (d p : List UInt8), i + d.length ≤ sizeofFileHeader →
      p.length = sizeofFileHeader → (splice p i d).length = sizeofFileHeader := by
    intro i d p hd hlen
    rw [length_splice (by omega), hlen]
  unfold writeLe
  refine hstore 272 _ _ (by rw [length_le]; omega) ?_
  refine hstore 264 _ _ (by rw [length_le]; omega) ?_
  refine hstore _ _ _ (by rw [List.length_singleton]; omega) ?_
  refine hstore 4 _ _ (by omega) ?_
  refine hstore 2 _ _ (by rw [length_le]; omega) ?_
  exact hstore 0 _ _ (by rw [length_le]; omega) (mem.length_reserve sizeofFileHeader)

/-- The number of chunks of `chunkSize` bytes, rounded up. -/
def ceilDiv (fileSize chunkSize : Nat) : Nat := (fileSize + chunkSize - 1) / chunkSize

/-- A size whose number of chunks fits 32 bits, with room for one more chunk, fits 64. -/
theorem sum_lt_of_ceilDiv_lt {n c : Nat} (hc : 1 ≤ c) (hc' : c < 2 ^ 32)
    (h : ceilDiv n c < 2 ^ 32) : n + c - 1 < 2 ^ 64 := by
  have hsum : n + c - 1 < 2 ^ 32 * c := (Nat.div_lt_iff_lt_mul (by omega)).mp h
  have hmul : 2 ^ 32 * c ≤ 2 ^ 32 * (2 ^ 32 - 1) := Nat.mul_le_mul_left _ (by omega)
  omega

/-- **The number of chunks fits the header** just when the code computes it right. -/
theorem chunksTotal_eq_iff {n c : Nat} (hc : 1 ≤ c) (hc' : c < 2 ^ 32) :
    chunksTotal (u64 n) c = ceilDiv n c ↔ ceilDiv n c < 2 ^ 32 := by
  constructor
  · intro h
    rw [← h]
    exact Nat.mod_lt _ (by decide)
  · intro h
    have hsum := sum_lt_of_ceilDiv_lt hc hc' h
    have hn : u64 n = n := Nat.mod_eq_of_lt (by omega)
    have hwrap : u64 (n + c + 2 ^ 64 - 1) = n + c - 1 := by
      unfold u64
      omega
    rw [chunksTotal, hn, hwrap]
    exact Nat.mod_eq_of_lt h

/-! ## 2. The round trip -/

/-- **The request carries the file**: it is one header long, and its fields are the name of the
    file, its size and the number of its chunks. -/
structure CarriesFile (filePath : Path) (size chunkSize : Nat) (request : List UInt8) : Prop where
  length : request.length = sizeofFileHeader
  filename : FileHeader.filename request = Path.filename filePath
  fileSize : FileHeader.fileSize request = size
  chunksTotal : FileHeader.chunksTotal request = ceilDiv size chunkSize

/-- The receiver of the request, in whose file system nothing fails, enters a transfer of the name
    in its directory, of the size and of the number of chunks. -/
def EntersFile (filePath : Path) (size chunkSize : Nat) (request : List UInt8) : Prop :=
  ∀ (fs : FileSystem) (r : FileTransferManager) (targetDir : Path),
    (startFileReceive fs r targetDir request .none).1 = true ∧
      ∃ context, (startFileReceive fs r targetDir request .none).2.2.transfers.find?
          r.nextConnectionId = some context ∧
        context.filePath = targetDir ++ 0x2F :: Path.filename filePath ∧
        context.fileSize = size ∧ context.chunksTotal = ceilDiv size chunkSize

section RoundTrip

variable {fs : FileSystem} {m : FileTransferManager} {filePath : Path} {content : List UInt8}
  {chunkSize : Nat} {mem : Memory}

/-- `StartFileSend` of the file sends a request with the property `P`. -/
def Requests (fs : FileSystem) (m : FileTransferManager) (filePath : Path) (chunkSize : Nat)
    (mem : Memory) (P : List UInt8 → Prop) : Prop :=
  ∃ m' request, m.startFileSend fs filePath chunkSize mem false =
    some (true, m', [.send request]) ∧ P request

/-- **The header has room** for the name of the file and its NUL, and for the number of chunks. -/
structure FitsHeader (filePath : Path) (size chunkSize : Nat) : Prop where
  name : (Path.filename filePath).length ≤ 255
  noNul : 0 ∉ Path.filename filePath
  chunks : ceilDiv size chunkSize < 2 ^ 32

/-- A name that was read has no NUL. -/
theorem not_mem_filename (p : List UInt8) : 0 ∉ FileHeader.filename p := by
  intro h
  have hne := List.mem_takeWhile_imp h
  simp at hne

/-- What is sent for a file is the request for it. -/
theorem requests_iff (hfile : fs.files filePath = some content) (P : List UInt8 → Prop) :
    Requests fs m filePath chunkSize mem P ↔
      ∃ request, createFileRequestPacket mem filePath (u64 content.length) chunkSize =
        some request ∧ P request := by
  unfold Requests FileTransferManager.startFileSend
  simp only [hfile, Bool.false_eq_true, if_false]
  constructor
  · rintro ⟨m', request, h, hP⟩
    obtain ⟨packet, hpacket, e⟩ := Option.map_eq_some_iff.mp h
    simp only [Prod.mk.injEq, List.cons.injEq, TransferEvent.send.injEq, true_and, and_true] at e
    obtain ⟨-, rfl⟩ := e
    exact ⟨packet, hpacket, hP⟩
  · rintro ⟨request, hrequest, hP⟩
    rw [hrequest]
    exact ⟨_, request, rfl, hP⟩

/-- **The request carries the file exactly if the header has room.** -/
theorem requests_carries_iff (hfile : fs.files filePath = some content) (hc : 1 ≤ chunkSize)
    (hc' : chunkSize < 2 ^ 32) :
    Requests fs m filePath chunkSize mem (CarriesFile filePath content.length chunkSize) ↔
      FitsHeader filePath content.length chunkSize := by
  rw [requests_iff hfile]
  constructor
  · rintro ⟨request, hrequest, h⟩
    refine ⟨?_, ?_, ?_⟩
    · unfold createFileRequestPacket at hrequest
      simp only at hrequest
      split at hrequest
      · rename_i hname
        exact Nat.le_of_lt_succ hname
      · nomatch hrequest
    · rw [← h.filename]
      exact not_mem_filename request
    · rw [← h.chunksTotal]
      exact readLe_lt request 272 4
  · intro h
    have hname : (Path.filename filePath).length < sizeofFilename := Nat.lt_succ_of_le h.name
    obtain ⟨request, hrequest⟩ : ∃ request, createFileRequestPacket mem filePath
        (u64 content.length) chunkSize = some request := ⟨_, if_pos hname⟩
    obtain ⟨-, hfilename, hsize, htotal⟩ := read_createFileRequestPacket h.noNul hrequest
    have hsum := sum_lt_of_ceilDiv_lt hc hc' h.chunks
    have hn : u64 content.length = content.length := Nat.mod_eq_of_lt (by omega)
    refine ⟨request, hrequest, length_createFileRequestPacket hrequest, hfilename, ?_, ?_⟩
    · rw [hsize, hn, hn]
    · rw [htotal]
      exact (chunksTotal_eq_iff hc hc').mpr h.chunks

/-- **Where nothing fails a reception is accepted** exactly if its file can be grown. -/
theorem startFileReceive_none_iff (fs : FileSystem) (r : FileTransferManager) (targetDir : Path)
    (request : List UInt8) :
    (startFileReceive fs r targetDir request .none).1 = true ↔ Preallocates request none := by
  rcases startFileReceive_outcome fs r targetDir request .none with ⟨h, -, hspace⟩ | ⟨h, hrefused⟩
  · exact iff_of_true h hspace
  · refine iff_of_false (Bool.eq_false_iff.mp h) ?_
    generalize (startFileReceive fs r targetDir request .none).2.1.files = files at hrefused
    cases hrefused with
    | directory hno => exact absurd hno.2 Bool.false_ne_true
    | file _ _ hopen => exact absurd hopen Bool.false_ne_true
    | space _ _ _ hspace => exact hspace

/-- **The file of a request that carries it is entered** exactly if it is not empty, and not too
    large for a stream. -/
theorem entersFile_iff {size : Nat} {request : List UInt8}
    (h : CarriesFile filePath size chunkSize request) :
    EntersFile filePath size chunkSize request ↔ 1 ≤ size ∧ size ≤ 2 ^ 63 := by
  have hspace : Preallocates request none ↔ 1 ≤ size ∧ size ≤ 2 ^ 63 := by
    unfold Preallocates
    rw [h.fileSize, and_iff_left rfl]
  constructor
  · intro henters
    exact hspace.mp ((startFileReceive_none_iff .empty .new [] request).mp
      (henters .empty .new []).1)
  · intro hsize fs r targetDir
    have htrue := (startFileReceive_none_iff fs r targetDir request).mpr (hspace.mpr hsize)
    refine ⟨htrue, .receiving (receivePath targetDir request) request, ?_, ?_, h.fileSize,
      h.chunksTotal⟩
    · rcases startFileReceive_cases fs r targetDir request .none with ⟨hfalse, -⟩ | ⟨-, e⟩
      · rw [htrue] at hfalse
        nomatch hfalse
      · rw [e]
        exact FileTransferManager.find?_setContext_self ..
    · exact congrArg (fun name => targetDir ++ 0x2F :: name) h.filename

/-- **When a file request arrives as it was meant**: for a file of any name and size and any chunk
    size the packet is well formed and read back right exactly if the header has room for the name
    and for the number of chunks, and the receiver then enters the file exactly if it is not empty
    (and a stream can reach its end). -/
theorem file_request_law (m : FileTransferManager) (mem : Memory)
    (hfile : fs.files filePath = some content) (hc : 1 ≤ chunkSize) (hc' : chunkSize < 2 ^ 32) :
    (Requests fs m filePath chunkSize mem (CarriesFile filePath content.length chunkSize) ↔
      FitsHeader filePath content.length chunkSize) ∧
    (Requests fs m filePath chunkSize mem (fun request =>
        CarriesFile filePath content.length chunkSize request ∧
          EntersFile filePath content.length chunkSize request) ↔
      FitsHeader filePath content.length chunkSize ∧
        1 ≤ content.length ∧ content.length ≤ 2 ^ 63) := by
  have hcarries : Requests fs m filePath chunkSize mem _ ↔ _ := requests_carries_iff hfile hc hc'
  refine ⟨hcarries, ?_⟩
  rw [requests_iff hfile] at hcarries ⊢
  constructor
  · rintro ⟨request, hrequest, h, henters⟩
    exact ⟨hcarries.mp ⟨request, hrequest, h⟩, (entersFile_iff h).mp henters⟩
  · rintro ⟨hfits, hsize⟩
    obtain ⟨request, hrequest, h⟩ := hcarries.mpr hfits
    exact ⟨request, hrequest, h, (entersFile_iff h).mpr hsize⟩

end RoundTrip

/-- The request for a file `a` of three bytes. -/
theorem file_request_law_three :
    Requests (FileSystem.empty.setFile [0x61] [1, 2, 3]) .new [0x61] 2 (fun _ => 0) fun request =>
      CarriesFile [0x61] 3 2 request ∧ EntersFile [0x61] 3 2 request := by
  have hfile : (FileSystem.empty.setFile [0x61] [1, 2, 3]).files [0x61] = some [1, 2, 3] := rfl
  exact (file_request_law .new (fun _ => 0) hfile (by decide) (by decide)).2.mpr
    ⟨⟨by decide, by decide, by decide⟩, by decide, by decide⟩

/-- A name of 128 characters of two bytes each. -/
def longName : Path := (List.replicate 128 [0xB0, 0xA1]).flatten

/-- **A file with a name of 256 bytes is never requested**: `strncpy_s` ends the process. -/
theorem long_name_not_requested :
    FileTransferManager.new.startFileSend (FileSystem.empty.setFile longName [1, 2, 3]) longName 2
        (fun _ => 0) false = none ∧
      ∀ P, ¬ Requests (FileSystem.empty.setFile longName [1, 2, 3]) .new longName 2
        (fun _ => 0) P := by
  have hfile : (FileSystem.empty.setFile longName [1, 2, 3]).files longName = some [1, 2, 3] :=
    FileSystem.files_setFile_self ..
  have hname : Path.filename longName = longName := by
    unfold Path.filename
    rw [show Path.dropDrive longName = longName from rfl, List.takeWhile_eq_self_iff.mpr,
      List.reverse_reverse]
    intro c hc
    obtain ⟨l, hl, hc⟩ := List.mem_flatten.mp (List.mem_reverse.mp hc)
    rw [(List.mem_replicate.mp hl).2, List.mem_cons, List.mem_singleton] at hc
    rcases hc with rfl | rfl <;> decide
  have hlong : ¬ (Path.filename longName).length < sizeofFilename := by
    have hlen : longName.length = 256 := by
      unfold longName
      rw [List.length_flatten, List.map_replicate, List.sum_replicate_nat]
      rfl
    rw [hname, hlen]
    decide
  have hnone : FileTransferManager.new.startFileSend
      (FileSystem.empty.setFile longName [1, 2, 3]) longName 2 (fun _ => 0) false = none := by
    unfold FileTransferManager.startFileSend createFileRequestPacket
    simp only [hfile, Bool.false_eq_true, if_false, hlong, Option.map_none]
  refine ⟨hnone, fun P h => ?_⟩
  obtain ⟨m', request, hsend, -⟩ := h
  rw [hnone] at hsend
  nomatch hsend

end ServerCore
