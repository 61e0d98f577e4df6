/-
  File:      ServerCore/FileBounds.lean
  Subject:   The size of a received file, over any sequence of chunk packets.

  StartFileReceive makes the file as long as it was announced; a chunk that is placed inside it
  leaves it so. Where a chunk is placed is its own word times the chunk size, which nothing
  compares with the size of the file: `file_size_law` says which chunks keep within it.
-/
import ServerCore.FileCancel
import ServerCore.FileCompletion

namespace ServerCore

open Seg Trans

/-! ## 1. The length of a file after a write -/

/-- The length of the file `path`. -/
def FileSystem.fileLength (fs : FileSystem) (path : Path) : Nat :=
  ((fs.files path).getD []).length

theorem FileSystem.fileLength_truncated (fs : FileSystem) (path : Path) :
    (fs.setFile path []).fileLength path = 0 := by
  unfold fileLength
  rw [files_setFile_self]
  rfl

theorem OFStream.length_stored (content : List UInt8) (pos : Nat) (bytes : List UInt8) :
    (OFStream.stored content pos bytes).length =
      if bytes = [] then content.length else max content.length (pos + bytes.length) := by
  unfold OFStream.stored
  cases bytes with
  | nil => rfl
  | cons b bs => exact length_patch _ _ _ _

/-- What is stored inside a file keeps its length. -/
theorem OFStream.length_stored_of_inside {content : List UInt8} {pos : Nat} {bytes : List UInt8}
    (h : bytes = [] ∨ pos + bytes.length ≤ content.length) :
    (OFStream.stored content pos bytes).length = content.length := by
  rw [OFStream.length_stored]
  split
  · rfl
  · rename_i hne
    exact Nat.max_eq_left (h.resolve_left hne)

/-- A write inside a file keeps its length, also where the device fails. -/
theorem OFStream.fileLength_write {s : OFStream} {fs : FileSystem} {bytes : List UInt8}
    (fault : Option Nat) (late : Bool)
    (h : bytes = [] ∨ s.pos + bytes.length ≤ fs.fileLength s.path) :
    (s.write fs bytes fault late).2.fileLength s.path = fs.fileLength s.path := by
  unfold OFStream.write
  split
  · unfold FileSystem.fileLength at h ⊢
    rw [FileSystem.files_setFile_self]
    refine OFStream.length_stored_of_inside ?_
    unfold OFStream.reached
    cases fault with
    | none => exact h
    | some n =>
        rcases h with rfl | hin
        · exact .inl List.take_nil
        · have htake := List.length_take_le' n bytes
          exact .inr (by dsimp only; omega)
  · rfl

/-- A file that is shorter than its full length, and can be grown, gets it. -/
theorem OFStream.fileLength_preallocate {fs : FileSystem} {path : Path} {n : Nat}
    (hlen : fs.fileLength path < n) (hn : n ≤ 2 ^ 63) :
    (OFStream.preallocate ⟨path, 0, true⟩ fs n none).2.fileLength path = n := by
  have hseek : OFStream.seekp ⟨path, 0, true⟩ (n - 1) = ⟨path, n - 1, true⟩ :=
    if_pos ⟨rfl, by omega⟩
  unfold OFStream.preallocate OFStream.put0
  rw [lastPosition_of_pos (by omega), hseek]
  unfold FileSystem.fileLength at hlen ⊢
  rw [OFStream.files_write fs [0] none false rfl, Option.getD_some, OFStream.length_stored,
    OFStream.reached, if_neg (List.cons_ne_nil _ _), List.length_singleton]
  dsimp only
  omega

/-! ## 2. The announced size -/

/-- **A request that is accepted** has made its file, with the size it announces. -/
theorem startFileReceive_accepted {fs fs' : FileSystem} {m m' : FileTransferManager}
    {targetDir : Path} {header : List UInt8} {faults : ReceiveFaults}
    (h : startFileReceive fs m targetDir header faults = (true, fs', m')) :
    1 ≤ FileHeader.fileSize header ∧ FileHeader.fileSize header ≤ 2 ^ 63 ∧
      fs'.fileLength (receivePath targetDir header) = FileHeader.fileSize header ∧
      m' = m.bump.setContext m.nextConnectionId
        (.receiving (receivePath targetDir header) header) := by
  unfold startFileReceive at h
  dsimp only at h
  split at h
  · nomatch h
  · split at h
    · nomatch h
    · split at h
      · nomatch h
      · rename_i hgood
        obtain ⟨rfl, rfl⟩ : _ = fs' ∧ _ = m' := by simpa using h
        obtain ⟨h1, hn, hfault⟩ := OFStream.good_preallocate_iff.mp (by simpa using hgood)
        rw [hfault]
        refine ⟨h1, hn, OFStream.fileLength_preallocate ?_ hn, rfl⟩
        rw [FileSystem.fileLength_truncated]
        exact h1

namespace TransferSession

/-- The write that the chunk packet `p` leads to. -/
def write (s : TransferSession) (p : List UInt8) (env : Surroundings) : Option FileWrite :=
  chunkWrite s.fs s.manager (.read p) env.time env.chunk

/-- **The file has its announced size** `n`: the file of the transfer `id`, to which chunks go. -/
def HasSize (s : TransferSession) (id n : Nat) : Prop :=
  ∃ context, s.latest? = some (id, context) ∧ context.fileSize = n ∧
    context.chunkSize = defaultChunkSize ∧ Path.parentPath context.filePath ≠ [] ∧
    s.fs.fileLength context.filePath = n

/-- All that `p` writes lies in `[0, n)`. -/
def WritesInside (s : TransferSession) (p : List UInt8) (env : Surroundings) (n : Nat) : Prop :=
  ∀ w, s.write p env = some w → ∀ i, w.offset ≤ i → i < w.offset + w.bytes.length → i < n

/-- The packet holds the data that its chunk header announces. -/
def HasPayload (p : List UInt8) : Prop :=
  (FileChunk.read p).chunkSize ≤ (FileChunk.read p).data.length

/-- The chunk lies inside a file of `n` bytes. -/
def Fits (p : List UInt8) (n : Nat) : Prop :=
  (FileChunk.read p).chunkSize = 0 ∨
    (FileChunk.read p).chunkId * defaultChunkSize + (FileChunk.read p).chunkSize ≤ n

/-- A file that cannot be opened in place, and is opened anew, can be grown again. -/
def Restores (faults : ChunkFaults) : Prop :=
  faults.openExisting = false ∨ faults.size = false ∧ faults.preallocate = none

/-- **What keeps the size**: a chunk that fits, where a file can be opened for it. -/
structure KeepsSize (n : Nat) (s : TransferSession) (p : List UInt8) (env : Surroundings) :
    Prop where
  isChunk : packetId p = fileDataChunk
  payload : HasPayload p
  fits : ∀ id context, s.latest? = some (id, context) → CanOpen s.fs context env.chunk →
    Fits p n ∧ Restores env.chunk

/-- Only chunk packets are received, and all keep the size. -/
def Keeps (n : Nat) (s : TransferSession) (l : TransferStep) : Prop :=
  ∃ p env, l = .packet p env ∧ KeepsSize n s p env

end TransferSession

/-! ## 3. One chunk -/

/-- **At the write the file has its full length**, if it was opened in place, or grown again. -/
theorem fileLength_streamForWrite {fs : FileSystem} {context : FileTransferContext}
    (chunk : FileChunk) {faults : ChunkFaults} (hn : context.fileSize ≤ 2 ^ 63)
    (hlen : fs.fileLength context.filePath = context.fileSize ∨
      fs.fileLength context.filePath < context.fileSize ∧ faults.size = false ∧
        faults.preallocate = none) :
    (streamForWrite ⟨context.filePath, 0, true⟩ fs context chunk faults).2.fileLength
      context.filePath = context.fileSize := by
  unfold streamForWrite
  rcases hlen with hfull | ⟨hshort, hsize, hpre⟩
  · have hle : ¬ ((fs.files context.filePath).getD []).length < context.fileSize :=
      Nat.not_lt_of_le (Nat.le_of_eq hfull.symm)
    rw [if_neg (by simp [hle])]
    exact hfull
  · have hlt : ((fs.files context.filePath).getD []).length < context.fileSize := hshort
    rw [if_pos (by simp [hsize, hlt]), hpre]
    exact OFStream.fileLength_preallocate hshort hn

/-- **The write of a chunk inside the file** leaves the file its length. -/
theorem fileLength_writeChunk {fs : FileSystem} {context : FileTransferContext}
    {chunk : FileChunk} {faults : ChunkFaults} (hn : context.fileSize ≤ 2 ^ 63)
    (hlen : fs.fileLength context.filePath = context.fileSize ∨
      fs.fileLength context.filePath < context.fileSize ∧ faults.size = false ∧
        faults.preallocate = none)
    (hin : chunk.payload = [] ∨
      chunkOffset chunk context + chunk.payload.length ≤ context.fileSize) :
    (writeChunk ⟨context.filePath, 0, true⟩ fs context chunk faults).2.fileLength
      context.filePath = context.fileSize := by
  have hfull := fileLength_streamForWrite chunk hn hlen
  have hpath : (streamForWrite ⟨context.filePath, 0, true⟩ fs context chunk faults).1.path =
      context.filePath := path_streamForWrite _ _ _ _ _
  have hpos : (streamForWrite ⟨context.filePath, 0, true⟩ fs context chunk faults).1.good = true →
      (streamForWrite ⟨context.filePath, 0, true⟩ fs context chunk faults).1.pos =
        chunkOffset chunk context := OFStream.pos_seekp_of_good
  rw [writeChunk_eq]
  generalize streamForWrite ⟨context.filePath, 0, true⟩ fs context chunk faults = stream
    at hpath hfull hpos ⊢
  rw [← hfull] at hin ⊢
  rw [← hpath] at hin ⊢
  cases hgood : stream.1.good with
  | false => rw [OFStream.write_of_bad _ _ _ _ hgood]
  | true =>
      rw [← hpos hgood] at hin
      exact OFStream.fileLength_write faults.write faults.late hin

/-- A file that has a size is there. -/
theorem isSome_of_fileLength {fs : FileSystem} {path : Path} (h : 1 ≤ fs.fileLength path) :
    (fs.files path).isSome = true := by
  unfold FileSystem.fileLength at h
  cases hfile : fs.files path with
  | none =>
      rw [hfile] at h
      exact absurd h (by decide)
  | some content => rfl

/-- The alternative file is in a directory. -/
theorem parentPath_alternativePath (dirPath : Path) (time : Nat) :
    Path.parentPath (alternativePath dirPath time) ≠ [] := by
  refine Path.parentPath_ne_nil (s := 0x2F) ?_ (by decide)
  unfold alternativePath
  rw [Path.ofString_received, List.append_assoc, List.append_assoc, List.cons_append,
    Path.dropDrive_append _ (by decide)]
  exact List.mem_append_right _ List.mem_cons_self

theorem parentPath_chunkPath (fs : FileSystem) {context : FileTransferContext} (time : Nat)
    (faults : ChunkFaults) (h : Path.parentPath context.filePath ≠ []) :
    Path.parentPath (chunkPath fs context time faults) ≠ [] := by
  rcases chunkPath_cases fs context time faults with e | e
  · rwa [e]
  · rw [e]
    exact parentPath_alternativePath _ _

namespace TransferSession

/-- What is written of a chunk that fits lies inside the file. -/
theorem payload_inside {p : List UInt8} {context : FileTransferContext}
    (hchunk : context.chunkSize = defaultChunkSize) {n : Nat} (hfits : Fits p n) :
    (FileChunk.read p).payload = [] ∨
      chunkOffset (.read p) context + (FileChunk.read p).payload.length ≤ n := by
  have hle : (FileChunk.read p).payload.length ≤ (FileChunk.read p).chunkSize :=
    List.length_take_le _ _
  rcases hfits with hzero | hfits
  · exact .inl (List.length_eq_zero_iff.mp (by omega))
  · rw [chunkOffset_default p hchunk, Nat.mul_comm]
    exact .inr (by omega)

/-- The file as it is opened for a chunk: in its full length, or such that it is grown to it. -/
theorem openedLength_of_restores {fs : FileSystem} {context : FileTransferContext}
    {faults : ChunkFaults} (h1 : 1 ≤ context.fileSize)
    (hlength : fs.fileLength context.filePath = context.fileSize) (hrestores : Restores faults) :
    openedLength fs context faults = context.fileSize ∨
      openedLength fs context faults < context.fileSize ∧ faults.size = false ∧
        faults.preallocate = none := by
  unfold openedLength
  rw [isSome_of_fileLength (by omega), Bool.true_and]
  cases hopen : faults.openExisting with
  | false => exact .inl hlength
  | true => exact .inr ⟨h1, hrestores.resolve_left (by simp [hopen])⟩

/-- The transfer after a chunk for which a file was opened. -/
theorem latest?_of_opened {s : TransferSession} {p : List UInt8} {env : Surroundings} {id : Nat}
    {context : FileTransferContext} (hp : packetId p = fileDataChunk)
    (hlast : s.latest? = some (id, context)) (hcan : CanOpen s.fs context env.chunk) :
    ∃ after, (s.receive p env).latest? = some (id, after) ∧
      after.filePath = chunkPath s.fs context env.time env.chunk ∧
      after.fileSize = context.fileSize ∧ after.chunkSize = context.chunkSize := by
  have hout := processFileChunk_outcome s.fs s.manager (.read p) env.time env.chunk
  unfold latest?
  rw [s.receive_chunk env hp]
  show ∃ after, (processFileChunk _ _ _ _ _).2.2.1.transfers.rbegin? = _ ∧ _
  generalize processFileChunk s.fs s.manager (.read p) env.time env.chunk = r at hout ⊢
  obtain ⟨result, fs', m', ev⟩ := r
  cases hout with
  | refused hnot => exact absurd hcan (hnot id context hlast)
  | failed key context' hlast' =>
      obtain ⟨rfl, rfl⟩ := Prod.mk.inj (Option.some.inj (hlast.symm.trans hlast'))
      exact ⟨_, OrdMap.rbegin?_insert_self hlast _, rfl, rfl, rfl⟩
  | accepted key context' hlast' =>
      obtain ⟨rfl, rfl⟩ := Prod.mk.inj (Option.some.inj (hlast.symm.trans hlast'))
      exact ⟨_, OrdMap.rbegin?_insert_self hlast _, FileTransferContext.filePath_accept ..,
        FileTransferContext.fileSize_accept .., FileTransferContext.chunkSize_accept ..⟩

/-- The files after a chunk for which a file was opened. -/
theorem fs_of_opened {s : TransferSession} {p : List UInt8} {env : Surroundings} {id : Nat}
    {file : OFStream} {fs' : FileSystem} {context : FileTransferContext}
    (hp : packetId p = fileDataChunk)
    (hopened : openedFile s.fs s.manager env.time env.chunk = some (id, file, fs', context)) :
    (s.receive p env).fs = (writeChunk file fs' context (.read p) env.chunk).2 := by
  rw [s.receive_chunk env hp]
  show (processFileChunk _ _ _ _ _).2.1 = _
  rw [processFileChunk_of_opened hopened, fs_storeChunk]

/-- **One chunk** that keeps to the condition leaves the file its size, and writes inside it. -/
theorem HasSize.step {s : TransferSession} {id n : Nat} (h1 : 1 ≤ n) (hn : n ≤ 2 ^ 63)
    (hI : s.HasSize id n) {p : List UInt8} {env : Surroundings} (hok : KeepsSize n s p env) :
    (s.receive p env).HasSize id n ∧ s.WritesInside p env n := by
  obtain ⟨context, hlast, rfl, hchunk, hparent, hlength⟩ := hI
  cases hopened : openedFile s.fs s.manager env.time env.chunk with
  | none =>
      obtain ⟨fs', hprocess, hfiles⟩ := processFileChunk_of_not_opened hopened (.read p)
      unfold WritesInside write chunkWrite
      rw [s.receive_chunk env hok.isChunk, show s.process p env = _ from hprocess, hopened]
      refine ⟨⟨context, hlast, rfl, hchunk, hparent, ?_⟩, fun w hw => absurd hw nofun⟩
      unfold FileSystem.fileLength at hlength ⊢
      rw [show (TransferSession.fs _).files = s.fs.files from hfiles]
      exact hlength
  | some r =>
      obtain ⟨key, file, fs', context'⟩ := r
      obtain ⟨key', latest, hlast', hcan⟩ := exists_openedFile_iff.mp ⟨_, hopened⟩
      obtain ⟨rfl, rfl⟩ := Prod.mk.inj (Option.some.inj (hlast.symm.trans hlast'))
      obtain ⟨rfl, hfor⟩ := openedFor_of_openedFile hopened hlast
      obtain ⟨hfits, hrestores⟩ := hok.fits _ _ hlast hcan
      obtain rfl := hfor.file
      have hsize : context'.fileSize = context.fileSize := by rw [hfor.moved]
      have hchunk' : context'.chunkSize = defaultChunkSize := by rw [hfor.moved, hchunk]
      have hopenedLength := openedLength_of_restores h1 hlength hrestores
      rw [← hfor.length, ← hsize] at hopenedLength
      have hinside := payload_inside hchunk' hfits
      constructor
      · obtain ⟨after, hlast₂, hpath₂, hsize₂, hchunk₂⟩ :=
          latest?_of_opened hok.isChunk hlast hcan
        refine ⟨after, hlast₂, hsize₂, hchunk₂.trans hchunk, ?_, ?_⟩
        · rw [hpath₂]
          exact parentPath_chunkPath _ _ _ hparent
        · have hmoved : context'.filePath = after.filePath := by rw [hfor.moved, hpath₂]
          rw [fs_of_opened hok.isChunk hopened, ← hmoved, ← hsize]
          exact fileLength_writeChunk (hsize ▸ hn) hopenedLength (hsize.symm ▸ hinside)
      · intro w hw i hi hlt
        obtain ⟨key₂, file₂, fs₂, context₂, hopened₂, hgood, rfl⟩ := chunkWrite_eq_some.mp hw
        rw [hopened] at hopened₂
        cases hopened₂
        rw [show (streamForWrite _ fs' context' (.read p) env.chunk).1.pos = _ from
          OFStream.pos_seekp_of_good hgood] at hi hlt
        rcases hinside with hnil | hle
        · dsimp only at hlt
          rw [hnil] at hlt
          exact absurd hlt (Nat.not_lt_of_le hi)
        · exact Nat.lt_of_lt_of_le hlt hle

/-- Wherever a chunk says it belongs, its offset is a position. -/
theorem offset_lt (p : List UInt8) : defaultChunkSize * (FileChunk.read p).chunkId < 2 ^ 63 := by
  have hid : (FileChunk.read p).chunkId < 256 ^ 4 := LittleEndian.readLe_lt p 4 4
  unfold defaultChunkSize
  omega

/-- **A chunk that does not fit**, where nothing fails, is written beyond the end of the file, and
    makes it longer. -/
theorem HasSize.outgrown {s : TransferSession} {id n : Nat} (h1 : 1 ≤ n) (hI : s.HasSize id n)
    {p : List UInt8} (env : Surroundings) (hp : packetId p = fileDataChunk)
    (hcalm : env.chunk = .none) (hpayload : HasPayload p) (hfits : ¬ Fits p n) :
    ¬ s.WritesInside p env n ∧ ¬ (s.receive p env).HasSize id n := by
  obtain ⟨context, hlast, rfl, hchunk, hparent, hlength⟩ := hI
  obtain ⟨hne, hbeyond⟩ : (FileChunk.read p).chunkSize ≠ 0 ∧ context.fileSize <
      (FileChunk.read p).chunkId * defaultChunkSize + (FileChunk.read p).chunkSize :=
    ⟨fun h => hfits (.inl h), Nat.lt_of_not_le fun h => hfits (.inr h)⟩
  have hdata : (FileChunk.read p).payload.length = (FileChunk.read p).chunkSize :=
    List.length_take_of_le hpayload
  have hoffset := chunkOffset_default p hchunk
  rw [Nat.mul_comm] at hbeyond
  -- there is a write
  have hcan : CanWrite s.fs context (.read p) env.chunk := by
    obtain ⟨content, hfile⟩ := Option.isSome_iff_exists.mp
      (isSome_of_fileLength (hlength.symm ▸ h1))
    rw [hcalm]
    refine canWrite_none hparent hfile ?_ (by rw [hoffset]; exact offset_lt p)
    unfold FileSystem.fileLength at hlength
    rw [hfile] at hlength
    exact Nat.le_of_eq hlength.symm
  obtain ⟨w, hw⟩ := exists_chunkWrite_iff.mpr ⟨id, context, hlast, hcan⟩
  have hw' := chunkWrite_eq hw hlast
  constructor
  · intro hinside
    have hlt := hinside w hw (defaultChunkSize * (FileChunk.read p).chunkId +
      (FileChunk.read p).chunkSize - 1)
    rw [hw'] at hlt
    dsimp only at hlt
    rw [hoffset, hdata] at hlt
    omega
  · rintro ⟨context₂, hlast₂, -, -, -, hlength₂⟩
    obtain ⟨after, hafter, hpath, -, -⟩ := latest?_of_opened hp hlast hcan.canOpen
    obtain ⟨-, rfl⟩ := Prod.mk.inj (Option.some.inj (hlast₂.symm.trans hafter))
    -- the data stands behind the announced size
    obtain ⟨content, hcontent, hslice⟩ := files_of_chunkWrite hw (by rw [hcalm]; rfl)
    rw [hw'] at hcontent hslice
    rw [s.receive_chunk env hp, hpath] at hlength₂
    unfold FileSystem.fileLength at hlength₂
    rw [show (TransferSession.fs _).files _ = some content from hcontent,
      Option.getD_some] at hlength₂
    have hlen := congrArg List.length hslice
    dsimp only at hlen
    rw [length_slice, hoffset, hdata, hlength₂] at hlen
    omega

/-! ## 4. Over all chunks -/

/-- **Every chunk of a run** that keeps to the condition leaves the file its size. -/
theorem hasSize_of_reach {s s' : TransferSession} {id n : Nat} (h1 : 1 ≤ n) (hn : n ≤ 2 ^ 63)
    (hI : s.HasSize id n) (h : Reach next (Keeps n) s s') : s'.HasSize id n := by
  refine h.invariant (I := fun s => s.HasSize id n) hI fun s s' l hI hok hs => ?_
  obtain ⟨p, env, rfl, hok⟩ := hok
  obtain rfl := Option.some.inj hs
  exact (hI.step h1 hn hok).1

/-- The session that has just accepted a request. -/
theorem hasSize_of_accepted {s : TransferSession}
    (hr : Reach FileTransferManager.next FileTransferManager.NoWrap .new s.manager)
    {header : List UInt8} {env : Surroundings} {id : Nat}
    (hstart : s.started (.packet header env) = some id) :
    (s.receive header env).HasSize id (FileHeader.fileSize header) ∧
      1 ≤ FileHeader.fileSize header ∧ FileHeader.fileSize header ≤ 2 ^ 63 := by
  obtain ⟨hp, haccepted, rfl⟩ := isRequest_of_started hstart
  obtain ⟨h1, hn, hlength, hm⟩ := startFileReceive_accepted (Prod.ext haccepted rfl)
  refine ⟨⟨.receiving (receivePath s.session.fileReceiveDirectory header) header, ?_, rfl, rfl,
    parentPath_receivePath s.session.fileReceiveDirectory header, ?_⟩, h1, hn⟩
  · unfold latest?
    rw [s.receive_request env hp]
    dsimp only [manager]
    rw [show (s.request header env).2.2 = _ from hm]
    exact (FileTransferManager.idsBelow_of_reach hr).rbegin?_create _
  · rw [s.receive_request env hp]
    exact hlength

/-- **When a received file keeps its announced size.** After a request was accepted, on every run
    of chunk packets that keep to the condition, the file has the announced size in every state
    and every write lies inside it. And where nothing fails the condition is exact: in each of
    these states a chunk is written inside, and leaves the file its size, only if it fits. -/
theorem file_size_law (s₀ : TransferSession)
    (hr₀ : Reach FileTransferManager.next FileTransferManager.NoWrap .new s₀.manager)
    (header : List UInt8) (env₀ : Surroundings) (id : Nat)
    (hstart : s₀.started (.packet header env₀) = some id) (s : TransferSession)
    (hr : Reach next (Keeps (FileHeader.fileSize header)) (s₀.receive header env₀) s) :
    s.HasSize id (FileHeader.fileSize header) ∧
      (∀ p env, KeepsSize (FileHeader.fileSize header) s p env →
        s.WritesInside p env (FileHeader.fileSize header)) ∧
      ∀ p env, packetId p = fileDataChunk → env.chunk = .none → HasPayload p →
        (s.WritesInside p env (FileHeader.fileSize header) ∧
            (s.receive p env).HasSize id (FileHeader.fileSize header) ↔
          Fits p (FileHeader.fileSize header)) := by
  obtain ⟨hI, h1, hn⟩ := hasSize_of_accepted hr₀ hstart
  replace hI := hasSize_of_reach h1 hn hI hr
  refine ⟨hI, fun p env hok => (hI.step h1 hn hok).2, fun p env hp hcalm hpayload =>
    ⟨?_, fun hfits => ?_⟩⟩
  · rintro ⟨hinside, hsize⟩
    by_contra hfits
    exact (hI.outgrown h1 env hp hcalm hpayload hfits).1 hinside
  · have hok : KeepsSize (FileHeader.fileSize header) s p env :=
      ⟨hp, hpayload, fun _ _ _ _ => ⟨hfits, .inl (by rw [hcalm]; rfl)⟩⟩
    obtain ⟨hsize, hinside⟩ := hI.step h1 hn hok
    exact ⟨hinside, hsize⟩

/-- A chunk packet of one byte, with any number. -/
theorem exists_chunk (chunkId : Nat) (hid : chunkId < 2 ^ 32) :
    ∃ p, packetId p = fileDataChunk ∧ HasPayload p ∧
      (∀ n, Fits p n ↔ chunkId * defaultChunkSize + 1 ≤ n) := by
  obtain ⟨p, -, -, hread⟩ := @read_createFileChunkPacket (fun _ => 0) [7] chunkId true (by decide)
  have hid' : u32 chunkId = chunkId := Nat.mod_eq_of_lt hid
  refine ⟨p, congrArg FileChunk.id hread, ?_, fun n => ?_⟩
  · exact Nat.le_of_eq (by rw [hread])
  · unfold Fits
    rw [hread]
    dsimp only
    rw [hid', List.length_singleton]
    exact or_iff_right (by decide)

/-- A file of one byte, and its only chunk twice. -/
theorem file_size_law_one_byte :
    ∃ request p s, (start .empty [0x2E] true).state.started (.packet request .calm) = some 1 ∧
      s = ((start .empty [0x2E] true).state.receive request .calm).receive p .calm ∧
      Reach next (Keeps 1) ((start .empty [0x2E] true).state.receive request .calm) s ∧
      s.HasSize 1 1 ∧ s.WritesInside p .calm 1 ∧ (s.receive p .calm).HasSize 1 1 := by
  obtain ⟨request, hid, -, hsize⟩ := exists_fileRequest (n := 1) (by decide)
  obtain ⟨hstart, -⟩ := receive_request_calm (start .empty [0x2E] true).state hid (by omega)
    (by omega)
  obtain ⟨p, hp, hpayload, hfits⟩ := exists_chunk 0 (by decide)
  have hfit := (hfits 1).mpr (by decide)
  have hr : Reach next (Keeps 1) ((start .empty [0x2E] true).state.receive request .calm) _ :=
    .step _ _ (.packet p .calm) .start
      ⟨p, .calm, rfl, hp, hpayload, fun _ _ _ _ => ⟨hfit, .inl rfl⟩⟩ rfl
  have hlaw := file_size_law (start .empty [0x2E] true).state .start request .calm 1 hstart
  rw [hsize] at hlaw
  obtain ⟨hI, -, hexact⟩ := hlaw _ hr
  obtain ⟨hinside, hafter⟩ := (hexact p .calm hp rfl hpayload).mpr hfit
  exact ⟨request, p, _, hstart, rfl, hr, hI, hinside, hafter⟩

/-- **A file of one byte is announced, and a chunk of one byte comes with the largest number**: it
    is written 16 TiB behind the end of the file. -/
theorem file_outgrows_announced_size :
    ∃ request p, FileHeader.fileSize request = 1 ∧
      (start .empty [0x2E] true).state.started (.packet request .calm) = some 1 ∧
      packetId p = fileDataChunk ∧ HasPayload p ∧
      ¬ ((start .empty [0x2E] true).state.receive request .calm).WritesInside p .calm 1 ∧
      ¬ (((start .empty [0x2E] true).state.receive request .calm).receive p .calm).HasSize 1 1 := by
  obtain ⟨request, hid, -, hsize⟩ := exists_fileRequest (n := 1) (by decide)
  obtain ⟨hstart, -⟩ := receive_request_calm (start .empty [0x2E] true).state hid (by omega)
    (by omega)
  obtain ⟨p, hp, hpayload, hfits⟩ := exists_chunk (2 ^ 32 - 1) (by decide)
  obtain ⟨hI, -, -⟩ := hasSize_of_accepted .start hstart
  rw [hsize] at hI
  obtain ⟨hinside, hsize'⟩ := hI.outgrown (Nat.le_refl 1) .calm hp rfl hpayload
    fun h => absurd ((hfits 1).mp h) (by decide)
  exact ⟨request, p, hsize, hstart, hp, hpayload, hinside, hsize'⟩

end TransferSession

end ServerCore
