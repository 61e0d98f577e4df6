/-
  File:      ServerCore/FileContent.lean
  Subject:   A file sent and received: whatever the order of its chunk packets and however often
             each comes, the receiver ends with the content of the sender.

  The sender cuts by `bytesSent`, the receiver places by `chunkId * chunkSize`. The invariant of
  the receiver (`Receiving`) says of its file that it has the full length and agrees with the
  content on the slices delivered so far; a delivered slice only adds to them, so order and
  repetition do not matter.

  * `read_createFileRequestPacket`: the header carries the name, the size and the chunk count.
  * `startFileReceive_none`, `processFileChunk_none`: the two calls where nothing fails.
  * `file_transfer_content`: the content of the file at the end.
-/
import ServerCore.FileTransferIds

namespace ServerCore

open Seg LittleEndian Trans

/-! ## 1. The request packet -/

/-- The field stored last. -/
theorem chunksTotal_createFileRequestPacket {mem : Memory} {filePath : Path}
    {fileSize chunkSize : Nat} {p : List UInt8}
    (hp : createFileRequestPacket mem filePath fileSize chunkSize = some p) :
    FileHeader.chunksTotal p = chunksTotal fileSize chunkSize := by
  unfold createFileRequestPacket at hp
  simp only at hp
  split at hp
  case isFalse => nomatch hp
  case isTrue =>
  obtain rfl := Option.some.inj hp
  have hrange : (256 : Nat) ^ 4 = 2 ^ 32 := by decide
  -- no store shortens the reservation
  have hfit : 272 + 4 ≤ (writeLe (splice (splice (writeLe (writeLe (mem.reserve sizeofFileHeader)
      0 2 sizeofFileHeader) 2 2 fileTransferRequest) 4 (Path.filename filePath))
      (4 + (Path.filename filePath).length) [0]) 264 8 fileSize).length := by
    unfold writeLe
    iterate 5 refine Nat.le_trans ?_ (le_length_splice _ _ _)
    rw [Memory.length_reserve]
    decide
  unfold FileHeader.chunksTotal
  rw [readLe_writeLe hfit, hrange]
  unfold chunksTotal u32
  rw [Nat.mod_mod]

/-- **A request packet carries what it was made of**: the file name, the size and the number of
    chunks. -/
theorem read_createFileRequestPacket {mem : Memory} {filePath : Path} {fileSize chunkSize : Nat}
    {p : List UInt8} (hzero : (0 : UInt8) ∉ Path.filename filePath)
    (hp : createFileRequestPacket mem filePath fileSize chunkSize = some p) :
    packetId p = fileTransferRequest ∧ FileHeader.filename p = Path.filename filePath ∧
      FileHeader.fileSize p = u64 fileSize ∧
      FileHeader.chunksTotal p = chunksTotal fileSize chunkSize := by
  have htotal := chunksTotal_createFileRequestPacket hp
  unfold createFileRequestPacket at hp
  simp only at hp
  split at hp
  case isFalse => nomatch hp
  case isTrue hname =>
  have h256 : sizeofFilename = 256 := rfl
  have h280 : sizeofFileHeader = 280 := rfl
  generalize Path.filename filePath = name at hp hname hzero ⊢
  -- the memory after each store, innermost first
  generalize hp0 : mem.reserve sizeofFileHeader = p0 at hp
  have l0 : p0.length = sizeofFileHeader := by
    rw [← hp0]
    exact mem.length_reserve _
  generalize hp1 : writeLe p0 0 2 sizeofFileHeader = p1 at hp
  have l1 : p1.length = p0.length := hp1 ▸ length_writeLe (by omega)
  generalize hp2 : writeLe p1 2 2 fileTransferRequest = p2 at hp
  have l2 : p2.length = p0.length := hp2 ▸ (length_writeLe (by omega)).trans l1
  generalize hp3 : splice p2 4 name = p3 at hp
  have l3 : p3.length = p0.length := hp3 ▸ (length_splice (by omega)).trans l2
  generalize hp4 : splice p3 (4 + name.length) [0] = p4 at hp
  have f4 : 4 + name.length + ([0] : List UInt8).length ≤ p3.length := by
    rw [List.length_singleton]
    omega
  have l4 : p4.length = p0.length := hp4 ▸ (length_splice f4).trans l3
  generalize hp5 : writeLe p4 264 8 fileSize = p5 at hp
  have l5 : p5.length = p0.length := hp5 ▸ (length_writeLe (by omega)).trans l4
  obtain rfl : writeLe p5 272 4 (chunksTotal fileSize chunkSize) = p := Option.some.inj hp
  have hid : packetId p2 = fileTransferRequest := by
    unfold packetId
    rw [← hp2, readLe_writeLe (by omega)]
    rfl
  -- the name and its NUL
  have hslice : slice (writeLe p5 272 4 (chunksTotal fileSize chunkSize)) 4 (name.length + 1) =
      name ++ [0] := by
    unfold writeLe at hp5 ⊢
    rw [slice_splice_of_disjoint (by rw [length_le]; omega) (by omega), ← hp5,
      slice_splice_of_disjoint (by rw [length_le]; omega) (by omega), ← slice_append_slice]
    congr 1
    · rw [← hp4, slice_splice_of_disjoint f4 (by omega), ← hp3, slice_splice_self (by omega)]
    · rw [← hp4]
      exact slice_splice_self f4
  have hdrop : (writeLe p5 272 4 (chunksTotal fileSize chunkSize)).drop 4 =
      name ++ 0 :: (writeLe p5 272 4 (chunksTotal fileSize chunkSize)).drop
        (4 + (name.length + 1)) := by
    unfold slice at hslice
    rw [← List.drop_drop, ← List.take_append_drop (name.length + 1)
      ((writeLe p5 272 4 (chunksTotal fileSize chunkSize)).drop 4), hslice]
    simp
  refine ⟨?_, ?_, ?_, htotal⟩
  · unfold packetId at hid ⊢
    rw [readLe_writeLe_of_disjoint (by omega) (by omega), ← hp5,
      readLe_writeLe_of_disjoint (by omega) (by omega), ← hp4, readLe_splice f4 (by omega), ← hp3,
      readLe_splice (by omega) (by omega), hid]
  · unfold FileHeader.filename
    rw [hdrop, List.takeWhile_append_of_pos]
    · simp
    · intro c hc
      simpa using fun h0 : c = 0 => hzero (h0 ▸ hc)
  · unfold FileHeader.fileSize
    rw [readLe_writeLe_of_disjoint (by omega) (by omega), ← hp5, readLe_writeLe (by omega)]
    rfl

/-! ## 2. The receiver where nothing fails -/

/-- There is a request for the file `a` of any size. -/
theorem exists_fileRequest {n : Nat} (hn : n < 2 ^ 63) :
    ∃ request, packetId request = fileTransferRequest ∧ FileHeader.filename request = [0x61] ∧
      FileHeader.fileSize request = n := by
  obtain ⟨request, hrequest⟩ : ∃ p, createFileRequestPacket (fun _ => 0) [0x61] n defaultChunkSize
      = some p := by
    unfold createFileRequestPacket
    dsimp only
    rw [if_pos (by decide)]
    exact ⟨_, rfl⟩
  obtain ⟨hid, hname, hsize, -⟩ := read_createFileRequestPacket (by decide) hrequest
  refine ⟨request, hid, hname, ?_⟩
  rw [hsize]
  unfold u64
  omega

theorem lastPosition_of_pos {n : Nat} (h0 : 1 ≤ n) : lastPosition n = n - 1 :=
  if_neg (by omega)

/-- Inside the file, what is stored is the patch. -/
theorem OFStream.stored_of_le {content : List UInt8} {pos : Nat} {bytes : List UInt8}
    (h : pos + bytes.length ≤ content.length) :
    OFStream.stored content pos bytes = patch 0 content pos bytes := by
  unfold OFStream.stored
  split
  · rename_i he
    rw [List.isEmpty_iff.mp he] at h ⊢
    rw [patch_of_le h]
    simp [splice]
  · rfl

/-- A zero written at the end of an empty file leaves a file of zeros. -/
theorem patch_nil_zero {n : Nat} (h : 1 ≤ n) :
    patch (0 : UInt8) [] (n - 1) [0] = List.replicate n 0 := by
  obtain ⟨k, rfl⟩ : ∃ k, n = k + 1 := ⟨n - 1, by omega⟩
  simp [patch, splice, grow, List.replicate_succ']

/-- A file of `n` bytes is made by the byte at its end. -/
theorem OFStream.preallocate_none (fs : FileSystem) (filePath : Path) {n : Nat} (h0 : 1 ≤ n)
    (h : n < 2 ^ 63) :
    OFStream.preallocate ⟨filePath, 0, true⟩ (fs.setFile filePath []) n none =
      (⟨filePath, n, true⟩,
        (fs.setFile filePath []).setFile filePath (List.replicate n 0)) := by
  have hseek : OFStream.seekp ⟨filePath, 0, true⟩ (n - 1) = ⟨filePath, n - 1, true⟩ :=
    if_pos ⟨rfl, by omega⟩
  unfold OFStream.preallocate OFStream.put0
  rw [lastPosition_of_pos h0, hseek, ← patch_nil_zero h0]
  unfold OFStream.write
  rw [if_pos rfl]
  simp only [FileSystem.files_setFile_self, Option.getD_some, List.length_singleton,
    Nat.sub_add_cancel h0]
  rfl

/-- **A request where nothing fails**: its file is there in full length, and its context is the one
    of the next id. -/
theorem startFileReceive_none (fs : FileSystem) (m : FileTransferManager) (targetDir : Path)
    (header : List UInt8) (h0 : 1 ≤ FileHeader.fileSize header)
    (h : FileHeader.fileSize header < 2 ^ 63) :
    ∃ fs', startFileReceive fs m targetDir header .none =
        (true, fs', m.bump.setContext m.nextConnectionId
          (.receiving (receivePath targetDir header) header)) ∧
      fs'.files (receivePath targetDir header) =
        some (List.replicate (FileHeader.fileSize header) 0) := by
  obtain ⟨fs₁, hdir⟩ := fs.exists_ensureDirectory targetDir
  have hpre := OFStream.preallocate_none
    (fs₁.backup (receivePath targetDir header) false) (receivePath targetDir header) h0 h
  refine ⟨((fs₁.backup (receivePath targetDir header) false).setFile
    (receivePath targetDir header) []).setFile (receivePath targetDir header)
    (List.replicate (FileHeader.fileSize header) 0), ?_, FileSystem.files_setFile_self _ _ _⟩
  unfold startFileReceive
  simp only [ReceiveFaults.none, hdir, Bool.false_eq_true, if_false, hpre]
  rfl

/-- A received file has a directory. -/
theorem parentPath_receivePath (targetDir : Path) (header : List UInt8) :
    Path.parentPath (receivePath targetDir header) ≠ [] := by
  refine Path.parentPath_ne_nil (s := 0x2F) ?_ (by decide)
  unfold receivePath
  rw [Path.dropDrive_append _ (by decide)]
  exact List.mem_append_right _ List.mem_cons_self

section Chunk

variable {fs : FileSystem} {m : FileTransferManager} {chunk : FileChunk}
  {context : FileTransferContext} {content : List UInt8}

/-- The write of a chunk that lies inside its file. -/
theorem writeChunk_none (hfile : fs.files context.filePath = some content)
    (hlen : content.length = context.fileSize) (hdata : chunk.data.length = chunk.chunkSize)
    (hfit : chunk.chunkId * context.chunkSize + chunk.chunkSize ≤ context.fileSize)
    (hsize : context.fileSize < 2 ^ 63) :
    ∃ pos, writeChunk ⟨context.filePath, 0, true⟩ fs context chunk .none =
      (⟨context.filePath, pos, true⟩, fs.setFile context.filePath
        (patch 0 content (chunk.chunkId * context.chunkSize) chunk.data)) := by
  have hoffset : chunkOffset chunk context = chunk.chunkId * context.chunkSize :=
    Nat.mod_eq_of_lt (by omega)
  have hgrown : ¬ ((!ChunkFaults.none.size &&
      decide (((fs.files context.filePath).getD []).length < context.fileSize)) = true) := by
    simp [hfile, hlen]
  have hseek : OFStream.seekp ⟨context.filePath, 0, true⟩ (chunk.chunkId * context.chunkSize) =
      ⟨context.filePath, chunk.chunkId * context.chunkSize, true⟩ :=
    if_pos ⟨rfl, by omega⟩
  have htake : chunk.data.take chunk.chunkSize = chunk.data :=
    List.take_of_length_le (Nat.le_of_eq hdata)
  unfold writeChunk
  simp only [if_neg hgrown, hoffset, hseek, htake]
  unfold OFStream.write
  rw [if_pos rfl]
  simp only [hfile, Option.getD_some, ChunkFaults.none, OFStream.reached]
  rw [OFStream.stored_of_le (by omega)]
  exact ⟨_, rfl⟩

/-- **A chunk where nothing fails** is written at its offset into the file of the context of the
    largest id. -/
theorem processFileChunk_none (time : Nat) {key : Nat}
    (hlast : m.transfers.rbegin? = some (key, context))
    (hparent : Path.parentPath context.filePath ≠ [])
    (hfile : fs.files context.filePath = some content)
    (hlen : content.length = context.fileSize) (hdata : chunk.data.length = chunk.chunkSize)
    (hfit : chunk.chunkId * context.chunkSize + chunk.chunkSize ≤ context.fileSize)
    (hsize : context.fileSize < 2 ^ 63) :
    ∃ fs' context' events,
      processFileChunk fs m chunk time .none = (true, fs', m.setContext key context', events) ∧
      context'.filePath = context.filePath ∧ context'.fileSize = context.fileSize ∧
      context'.chunkSize = context.chunkSize ∧
      fs'.files context.filePath =
        some (patch 0 content (chunk.chunkId * context.chunkSize) chunk.data) := by
  obtain ⟨fs₁, hdir⟩ := fs.exists_ensureDirectory (Path.parentPath context.filePath)
  have hfile₁ : fs₁.files context.filePath = some content :=
    FileSystem.files_ensureDirectory hdir ▸ hfile
  have hparent' := FileSystem.ensureParent_eq_some.mpr ⟨hparent, hdir⟩
  have hopen : openForChunk fs₁ context (Path.parentPath context.filePath) time .none =
      some (⟨context.filePath, 0, true⟩, fs₁, context) := by
    unfold openForChunk
    rw [if_pos (by simp [hfile₁, ChunkFaults.none])]
  obtain ⟨pos, hwrite⟩ := writeChunk_none hfile₁ hlen hdata hfit hsize
  have hprocess : processFileChunk fs m chunk time .none =
      storeChunk m key ⟨context.filePath, 0, true⟩ fs₁ context chunk .none := by
    unfold processFileChunk
    rw [hlast]
    simp only [ChunkFaults.none] at hparent' hopen ⊢
    rw [hparent']
    simp only [hopen]
  rw [hprocess]
  unfold storeChunk
  rw [hwrite]
  simp only [Bool.not_true, Bool.false_eq_true, if_false]
  split
  · exact ⟨_, _, _, rfl, rfl, rfl, rfl, FileSystem.files_setFile_self _ _ _⟩
  · exact ⟨_, _, _, rfl, rfl, rfl, rfl, FileSystem.files_setFile_self _ _ _⟩

end Chunk

/-! ## 3. Any order, any repetition -/

/-- **The deliveries of chunk packets** to a receiver whose file is `path`; between them anything
    may happen to other files. -/
inductive Delivery (path : Path) (fs₁ : FileSystem) (m₁ : FileTransferManager) :
    List (List UInt8) → FileSystem → FileTransferManager → Prop where
  | start : Delivery path fs₁ m₁ [] fs₁ m₁
  | chunk (ps : List (List UInt8)) (fs fs' : FileSystem) (m m' : FileTransferManager)
      (p : List UInt8) (time : Nat) (result : Bool) (events : List TransferEvent)
      (h : Delivery path fs₁ m₁ ps fs m)
      (hp : processFileChunk fs m (.read p) time .none = (result, fs', m', events)) :
      Delivery path fs₁ m₁ (ps ++ [p]) fs' m'
  | other (ps : List (List UInt8)) (fs fs' : FileSystem) (m : FileTransferManager)
      (h : Delivery path fs₁ m₁ ps fs m) (hpath : fs'.files path = fs.files path) :
      Delivery path fs₁ m₁ ps fs' m

/-- The positions of the slices delivered. -/
def Delivered (ps : List (List UInt8)) (j : Nat) : Prop :=
  ∃ p ∈ ps, (FileChunk.read p).chunkId * defaultChunkSize ≤ j ∧
    j < (FileChunk.read p).chunkId * defaultChunkSize + defaultChunkSize

/-- The packets are slices of `f`. -/
def SlicesOf (f : List UInt8) (ps : List (List UInt8)) : Prop :=
  ∀ p ∈ ps, ∃ i, i < sliceCount f.length defaultChunkSize ∧
    FileChunk.read p = sliceChunk f defaultChunkSize i

/-- **The receiver's invariant**: its context is the one of the largest id, and its file agrees
    with `f` on the slices delivered so far. -/
structure Receiving (path : Path) (f : List UInt8) (key : Nat) (ps : List (List UInt8))
    (fs : FileSystem) (m : FileTransferManager) : Prop where
  context : ∃ context, m.transfers.rbegin? = some (key, context) ∧ context.filePath = path ∧
    context.fileSize = f.length ∧ context.chunkSize = defaultChunkSize
  directory : Path.parentPath path ≠ []
  file : ∃ content, fs.files path = some content ∧ AgreesOn f content (Delivered ps)

/-- A slice of `f` as the receiver places it: its id is its number, without wrapping. -/
theorem sliceChunk_placed {f : List UInt8} (hlen : f.length ≤ 2 ^ 44) {i : Nat}
    (hi : i < sliceCount f.length defaultChunkSize) :
    (sliceChunk f defaultChunkSize i).chunkId = i ∧ i * defaultChunkSize < f.length ∧
      (sliceChunk f defaultChunkSize i).data =
        slice f (i * defaultChunkSize) defaultChunkSize := by
  have hsize : sliceSize defaultChunkSize = defaultChunkSize := rfl
  have hlt : i * defaultChunkSize < f.length := (lt_sliceCount (by decide) i).mp hi
  have h4096 : i * 4096 < f.length := hlt
  refine ⟨?_, hlt, ?_⟩
  · show u32 i = i
    unfold u32
    omega
  · unfold sliceChunk
    rw [hsize]

/-- **One slice more.** -/
theorem Receiving.chunk {path : Path} {f : List UInt8} {key : Nat} {ps : List (List UInt8)}
    {fs fs' : FileSystem} {m m' : FileTransferManager} (hlen : f.length ≤ 2 ^ 44)
    (hI : Receiving path f key ps fs m) {p : List UInt8} (hslice : SlicesOf f [p]) {time : Nat}
    {result : Bool} {events : List TransferEvent}
    (hp : processFileChunk fs m (.read p) time .none = (result, fs', m', events)) :
    Receiving path f key (ps ++ [p]) fs' m' := by
  obtain ⟨context, hlast, rfl, hsize, hchunk⟩ := hI.context
  obtain ⟨content, hfile, hagree⟩ := hI.file
  obtain ⟨i, hi, hread⟩ := hslice p (List.mem_singleton_self p)
  obtain ⟨hid, hlt, hdata⟩ := sliceChunk_placed hlen hi
  rw [← hread] at hid hdata
  have hdlen : (FileChunk.read p).data.length = (FileChunk.read p).chunkSize := by
    rw [hread]
    rfl
  have hfit : (FileChunk.read p).chunkId * context.chunkSize + (FileChunk.read p).chunkSize ≤
      context.fileSize := by
    rw [← hdlen, hid, hchunk, hsize, hdata, length_slice]
    omega
  obtain ⟨fs₁, context', ev, hrun, hpath', hsize', hchunk', hfile'⟩ := processFileChunk_none time
    hlast hI.directory hfile (hagree.length.trans hsize.symm) hdlen hfit (by omega)
  obtain ⟨-, rfl, rfl, -⟩ : true = result ∧ fs₁ = fs' ∧ m.setContext key context' = m' ∧
      ev = events := by
    have e := hrun.symm.trans hp
    simpa using e
  refine ⟨⟨context', OrdMap.rbegin?_insert_self hlast context', hpath', hsize'.trans hsize,
    hchunk'.trans hchunk⟩, hI.directory, _, hfile', ?_⟩
  rw [hid, hdata, hchunk]
  have hpatch := hagree.patch_slice 0 (n := defaultChunkSize) (Nat.le_of_lt hlt)
  refine ⟨hpatch.length, fun j hj => hpatch.agrees j ?_⟩
  obtain ⟨q, hq, hqj⟩ := hj
  rcases List.mem_append.mp hq with hq | hq
  · exact .inl ⟨q, hq, hqj⟩
  · rw [List.mem_singleton.mp hq, hid] at hqj
    exact .inr hqj

/-- **The receiver over its deliveries.** -/
theorem Delivery.receiving {path : Path} {f : List UInt8} {key : Nat} {fs₁ fs : FileSystem}
    {m₁ m : FileTransferManager} {ps : List (List UInt8)} (hlen : f.length ≤ 2 ^ 44)
    (hstart : Receiving path f key [] fs₁ m₁) (h : Delivery path fs₁ m₁ ps fs m)
    (hslices : SlicesOf f ps) : Receiving path f key ps fs m := by
  induction h with
  | start => exact hstart
  | chunk ps fs fs' m m' p time result events _ hp ih =>
      have hI := ih fun q hq => hslices q (List.mem_append_left _ hq)
      exact hI.chunk hlen (fun q hq => hslices q (List.mem_append_right _ hq)) hp
  | other ps fs fs' m _ hpath ih =>
      have hI := ih hslices
      exact ⟨hI.context, hI.directory, hpath ▸ hI.file⟩

/-- The receiver after a request that announces `f`. -/
theorem receiving_start (fs : FileSystem) {m : FileTransferManager} (hm : m.IdsBelow)
    (targetDir : Path) {header f : List UInt8} (hf : FileHeader.fileSize header = f.length)
    (hne : f ≠ []) (hlen : f.length ≤ 2 ^ 44) :
    ∃ fs' m', startFileReceive fs m targetDir header .none = (true, fs', m') ∧
      Receiving (receivePath targetDir header) f m.nextConnectionId [] fs' m' := by
  have hpos : 1 ≤ f.length := List.length_pos_iff.mpr hne
  obtain ⟨fs', hrun, hfile⟩ := startFileReceive_none fs m targetDir header (by omega)
    (by omega)
  refine ⟨fs', _, hrun, ⟨_, hm.rbegin?_create _, rfl, hf, rfl⟩, parentPath_receivePath _ _, _,
    hfile, List.length_replicate.trans hf, fun j hj => ?_⟩
  obtain ⟨q, hq, -⟩ := hj
  nomatch hq

/-- The packets of a finished transfer are its slices, each of them. -/
theorem packets_of_finished {filePath : Path} {f : List UInt8} {calls : List (List TransferEvent)}
    {context : FileTransferContext} (hS : ChunkStream filePath f defaultChunkSize calls context)
    (hdone : context.isCompleted = true) :
    SlicesOf f (packets calls.flatten) ∧ ∀ i, i < sliceCount f.length defaultChunkSize →
      ∃ p ∈ packets calls.flatten, FileChunk.read p = sliceChunk f defaultChunkSize i := by
  have hcalls := hS.isCompleted.mp hdone
  have hslices := hS.slices
  rw [Nat.min_eq_right (by omega)] at hslices
  constructor
  · intro p hp
    have hmem : FileChunk.read p ∈ (packets calls.flatten).map FileChunk.read :=
      List.mem_map_of_mem hp
    rw [hslices] at hmem
    obtain ⟨i, hi, e⟩ := List.mem_map.mp hmem
    exact ⟨i, List.mem_range.mp hi, e.symm⟩
  · intro i hi
    have hmem : sliceChunk f defaultChunkSize i ∈
        (List.range (sliceCount f.length defaultChunkSize)).map (sliceChunk f defaultChunkSize) :=
      List.mem_map_of_mem (List.mem_range.mpr hi)
    rw [← hslices] at hmem
    exact List.mem_map.mp hmem

/-- **Once every slice came, the file is `f`.** -/
theorem Receiving.content {path : Path} {f : List UInt8} {key : Nat} {ps : List (List UInt8)}
    {fs : FileSystem} {m : FileTransferManager} (hlen : f.length ≤ 2 ^ 44)
    (hI : Receiving path f key ps fs m)
    (hall : ∀ i, i < sliceCount f.length defaultChunkSize →
      ∃ p ∈ ps, FileChunk.read p = sliceChunk f defaultChunkSize i) :
    fs.files path = some f := by
  obtain ⟨content, hfile, hagree⟩ := hI.file
  have h4096 : defaultChunkSize = 4096 := rfl
  rw [hfile, hagree.eq fun j hj => ?_]
  -- the slice of position `j`
  have hi : j / defaultChunkSize < sliceCount f.length defaultChunkSize := by
    refine (lt_sliceCount (by decide) _).mpr ?_
    exact Nat.lt_of_le_of_lt (Nat.div_mul_le_self j defaultChunkSize) hj
  obtain ⟨p, hp, hread⟩ := hall _ hi
  obtain ⟨hid, -, -⟩ := sliceChunk_placed hlen hi
  refine ⟨p, hp, ?_⟩
  rw [hread, hid, h4096]
  omega

/-- **File transfer content.** A file is sent with the default chunk size until its transfer is
    completed, and the chunk packets are delivered in any order and any number of times, but each
    of them, to a receiver that was given the request packet. Then the file at the path of the
    receiver's context holds the content of the sender's. -/
theorem file_transfer_content (fs fsReceiver : FileSystem) (m₀ r₀ : FileTransferManager)
    (filePath targetDir : Path) (f : List UInt8) (mem : Memory)
    (hfile : fs.files filePath = some f) (hne : f ≠ []) (hlen : f.length ≤ 2 ^ 44)
    (hname : (Path.filename filePath).length ≤ 255) (hzero : (0 : UInt8) ∉ Path.filename filePath)
    (hr₀ : Reach FileTransferManager.next FileTransferManager.NoWrap .new r₀) :
    ∃ m₁ request, m₀.startFileSend fs filePath defaultChunkSize mem false =
        some (true, m₁, [.send request]) ∧
      ∀ calls m context, TransferRun fs m₀.nextConnectionId m₁ calls m →
        m.transfers.find? m₀.nextConnectionId = some context → context.isCompleted = true →
      ∃ fs₁ r₁, startFileReceive fsReceiver r₀ targetDir request .none = (true, fs₁, r₁) ∧
        ∀ delivered fs' r, Delivery (receivePath targetDir request) fs₁ r₁ delivered fs' r →
          (∀ p, p ∈ delivered ↔ p ∈ packets calls.flatten) →
        ∃ received, r.transfers.find? r₀.nextConnectionId = some received ∧
          received.filePath = targetDir ++ 0x2F :: Path.filename filePath ∧
          fs'.files received.filePath = some f := by
  obtain ⟨request, hrequest, hstart⟩ := startFileSend_of_file m₀ defaultChunkSize mem
    hfile (by omega) (Nat.lt_succ_of_le hname)
  refine ⟨_, request, hstart, fun calls m context hrun hfind hdone => ?_⟩
  obtain ⟨hcontext, hS⟩ := hrun.chunkStream hfile (by omega) (by decide)
    (find?_of_startFileSend hfile (by omega) hstart)
  obtain rfl : context = _ := Option.some.inj (hfind.symm.trans hcontext)
  obtain ⟨hslices, hall⟩ := packets_of_finished hS hdone
  obtain ⟨-, hfilename, hsize, -⟩ := read_createFileRequestPacket hzero hrequest
  have hf : FileHeader.fileSize request = f.length :=
    hsize.trans (Nat.mod_eq_of_lt (by omega))
  obtain ⟨fs₁, r₁, hreceive, hI⟩ := receiving_start fsReceiver
    (FileTransferManager.idsBelow_of_reach hr₀) targetDir hf hne hlen
  refine ⟨fs₁, r₁, hreceive, fun delivered fs' r hdelivery hmem => ?_⟩
  have hI' := hdelivery.receiving hlen hI fun p hp => hslices p ((hmem p).mp hp)
  obtain ⟨received, hlast, hpath, -, -⟩ := hI'.context
  refine ⟨received, (OrdMap.rbegin?_eq_some_iff.mp hlast).1, ?_, ?_⟩
  · rw [hpath]
    unfold receivePath
    rw [hfilename]
  · rw [hpath]
    refine hI'.content hlen fun i hi => ?_
    obtain ⟨p, hp, hread⟩ := hall i hi
    exact ⟨p, (hmem p).mpr hp, hread⟩

/-- Three bytes go out in one chunk packet, which comes twice. -/
theorem file_transfer_content_one_chunk :
    let fs := FileSystem.empty.setFile [0x61] [1, 2, 3]
    ∃ m₁ m request p fs₁ r₁ fs₃ r₃ received,
      FileTransferManager.new.startFileSend fs [0x61] defaultChunkSize (fun _ => 0) false =
        some (true, m₁, [.send request]) ∧
      m₁.sendNextChunk fs 1 (fun _ => 0) .none =
        (true, m, [.send p, .complete 1 true [0x61]]) ∧
      startFileReceive .empty .new [0x2E] request .none = (true, fs₁, r₁) ∧
      Delivery (receivePath [0x2E] request) fs₁ r₁ [p, p] fs₃ r₃ ∧
      r₃.transfers.find? 1 = some received ∧ received.filePath = [0x2E, 0x2F, 0x61] ∧
      fs₃.files received.filePath = some [1, 2, 3] := by
  intro fs
  have hfile : fs.files [0x61] = some [1, 2, 3] := rfl
  obtain ⟨m₁, request, hstart, h⟩ := file_transfer_content fs .empty .new .new [0x61] [0x2E]
    [1, 2, 3] (fun _ => 0) hfile (by decide) (by decide) (by decide) (by decide) .start
  have hfind : m₁.findTransfer 1 = some (1, contextAfter [0x61] 3 defaultChunkSize 0) :=
    FileTransferManager.findTransfer_of_find? (find?_of_startFileSend hfile (by decide) hstart)
  obtain ⟨p, -, -, hsend⟩ := sendNextChunk_of_lt (fun _ => 0) hfile (by decide) (by decide) hfind
    (by decide)
  have hlast : 0 + 1 = sliceCount ([1, 2, 3] : List UInt8).length defaultChunkSize := by decide
  rw [if_pos hlast] at hsend
  obtain ⟨fs₁, r₁, hreceive, h'⟩ := h [_] _ _ (.own [] _ _ 1 _ _ _ _ .start hfind hsend)
    (FileTransferManager.find?_setContext_self ..) rfl
  rcases h₂ : processFileChunk fs₁ r₁ (.read p) 0 .none with ⟨result₂, fs₂, r₂, events₂⟩
  rcases h₃ : processFileChunk fs₂ r₂ (.read p) 1 .none with ⟨result₃, fs₃, r₃, events₃⟩
  have hdelivery : Delivery (receivePath [0x2E] request) fs₁ r₁ [p, p] fs₃ r₃ :=
    .chunk [p] _ _ _ _ p 1 _ _ (.chunk [] _ _ _ _ p 0 _ _ .start h₂) h₃
  obtain ⟨received, hreceived, hpath, hcontent⟩ := h' [p, p] fs₃ r₃ hdelivery (by simp [packets])
  exact ⟨m₁, _, request, p, fs₁, r₁, fs₃, r₃, received, hstart, hsend, hreceive, hdelivery,
    hreceived, hpath, hcontent⟩

end ServerCore
