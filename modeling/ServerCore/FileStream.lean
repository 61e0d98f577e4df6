/-
  File:      ServerCore/FileStream.lean
  Subject:   The packets of one file transfer, in order: what a ClientSession sends for a file, and
             how far a FilePacketSession is that took up the first of them.

  `IsStream`: the request for a file and then its slices, one after another.

  * `Sending.step`: a session that sends one file sends the packets of its stream; at rest, all.
  * `Taken.receive`: a receiver that is given the packets of a stream has the slices it was given in
    its file, and reports the file with the last of them.
  * `onRecvPacket_packet`: what stands in the buffer behind a packet of a stream does not matter.
-/
import ServerCore.FileRequest
import ServerCore.StressCalls

namespace ServerCore

open Seg LittleEndian Layout Trans

/-! ## 1. The packets of a stream -/

/-- The packet announces the file. -/
structure Announces (filePath : Path) (f p : List UInt8) : Prop where
  wellFormed : WellFormedPacket p
  length : p.length = sizeofFileHeader
  id : packetId p = fileTransferRequest
  filename : FileHeader.filename p = Path.filename filePath
  fileSize : FileHeader.fileSize p = f.length
  chunksTotal : FileHeader.chunksTotal p = sliceCount f.length defaultChunkSize
  terminated : 0 ∈ p.drop 4

/-- **The packets are the first of a transfer**: the request, and then the slices in order. -/
def IsStream (filePath : Path) (f : List UInt8) : List (List UInt8) → Prop
  | [] => True
  | request :: chunks => Announces filePath f request ∧
      chunks.map FileChunk.read =
        (List.range chunks.length).map (sliceChunk f defaultChunkSize) ∧
      chunks.length ≤ sliceCount f.length defaultChunkSize ∧
      ∀ p ∈ chunks, p.length = (FileChunk.read p).size

section Packets

variable {filePath : Path} {f : List UInt8}

/-- The fields of a request. -/
def requestFields (name : Path) (fileSize chunksTotal : Nat) : List (Stored UInt8) :=
  [⟨4, name⟩, ⟨4 + name.length, [0]⟩, .le 264 8 fileSize, .le 272 4 chunksTotal]

theorem behindHeader_requestFields {name : Path} (hname : name.length < sizeofFilename)
    (fileSize chunksTotal : Nat) :
    BehindHeader sizeofFileHeader (requestFields name fileSize chunksTotal) := by
  have h256 : sizeofFilename = 256 := rfl
  have h280 : sizeofFileHeader = 280 := rfl
  refine ⟨⟨?_, ?_⟩, ?_⟩
  · simp only [requestFields, List.forall_mem_cons, Stored.stop_mk, Stored.stop_le,
      List.length_singleton]
    exact ⟨by omega, by omega, by omega, by omega, List.forall_mem_nil _⟩
  · simp only [requestFields, List.pairwise_cons, List.forall_mem_cons, Stored.Apart,
      Stored.stop_mk, Stored.stop_le, Stored.offset_le, List.length_singleton]
    exact ⟨⟨by omega, by omega, by omega, List.forall_mem_nil _⟩, ⟨by omega, by omega,
      List.forall_mem_nil _⟩, ⟨by omega, List.forall_mem_nil _⟩, List.forall_mem_nil _, .nil⟩
  · simp only [requestFields, List.forall_mem_cons, Stored.offset_le, sizeofPacketHeader]
    exact ⟨by omega, by omega, by omega, by omega, List.forall_mem_nil _⟩

/-- **The request for a file** announces it, if its header has room. -/
theorem announces_createFileRequestPacket {mem : Memory} {request : List UInt8}
    (hfits : FitsHeader filePath f.length defaultChunkSize)
    (h : createFileRequestPacket mem filePath (u64 f.length) defaultChunkSize = some request) :
    Announces filePath f request := by
  have hsum := sum_lt_of_ceilDiv_lt (by decide) (by decide) hfits.chunks
  have hn : u64 f.length = f.length := by
    have h4096 : defaultChunkSize = 4096 := rfl
    exact Nat.mod_eq_of_lt (by omega)
  obtain ⟨hid, hfilename, hsize, htotal⟩ := read_createFileRequestPacket hfits.noNul h
  have hlen := length_createFileRequestPacket h
  have hname : (Path.filename filePath).length < sizeofFilename :=
    Nat.lt_succ_of_le hfits.name
  have hbehind := behindHeader_requestFields hname (u64 f.length)
    (chunksTotal (u64 f.length) defaultChunkSize)
  obtain rfl : packetOf mem sizeofFileHeader fileTransferRequest
      (requestFields (Path.filename filePath) (u64 f.length)
        (chunksTotal (u64 f.length) defaultChunkSize)) = request := by
    unfold createFileRequestPacket at h
    dsimp only at h
    rw [if_pos hname] at h
    exact Option.some.inj h
  refine ⟨wellFormed_packetOf hbehind (by decide) (by decide), hlen, hid, hfilename, ?_, ?_, ?_⟩
  · rw [hsize, hn, hn]
  · rw [htotal]
    exact (chunksTotal_eq_iff (by decide) (by decide)).mpr hfits.chunks
  · have hslice := slice_storeAll (hbehind.disjoint_packet mem fileTransferRequest (by decide))
      ⟨4 + (Path.filename filePath).length, [0]⟩ (by simp [requestFields])
    refine List.mem_of_mem_drop (i := (Path.filename filePath).length) ?_
    rw [List.drop_drop]
    refine List.mem_of_mem_take (i := 1) ?_
    rw [packetOf]
    unfold slice at hslice
    rw [List.length_singleton] at hslice
    rw [hslice]
    exact List.mem_singleton_self 0

theorem IsStream.of_append : ∀ {ps qs : List (List UInt8)}, IsStream filePath f (ps ++ qs) →
    IsStream filePath f ps
  | [], _, _ => trivial
  | request :: chunks, qs, h => by
      rw [List.cons_append] at h
      obtain ⟨hrequest, hread, hle, hsize⟩ := h
      rw [List.length_append] at hle
      refine ⟨hrequest, ?_, by omega, fun p hp => hsize p (List.mem_append_left _ hp)⟩
      have htake := congrArg (List.take chunks.length) hread
      rw [List.map_append, List.take_left' (List.length_map _), ← List.map_take,
        List.take_range, List.length_append, Nat.min_eq_left (by omega)] at htake
      exact htake

theorem IsStream.length_le {ps : List (List UInt8)} (h : IsStream filePath f ps) :
    ps.length ≤ sliceCount f.length defaultChunkSize + 1 := by
  cases ps with
  | nil => exact Nat.zero_le _
  | cons request chunks =>
      obtain ⟨-, -, hle, -⟩ := h
      exact Nat.succ_le_succ hle

/-- The slice that comes next. -/
theorem IsStream.last {request p : List UInt8} {chunks : List (List UInt8)}
    (h : IsStream filePath f (request :: (chunks ++ [p]))) :
    chunks.length < sliceCount f.length defaultChunkSize ∧
      FileChunk.read p = sliceChunk f defaultChunkSize chunks.length ∧
      p.length = (FileChunk.read p).size := by
  obtain ⟨-, hread, hle, hsize⟩ := h
  rw [List.length_append, List.length_singleton] at hread hle
  refine ⟨hle, ?_, hsize p (List.mem_append_right _ (List.mem_singleton_self p))⟩
  rw [List.map_append, List.range_succ, List.map_append] at hread
  have hlast := (List.append_inj' hread rfl).2
  exact List.head_eq_of_cons_eq hlast

/-- One slice more. -/
theorem IsStream.snoc {request p : List UInt8} {chunks : List (List UInt8)}
    (h : IsStream filePath f (request :: chunks))
    (hlt : chunks.length < sliceCount f.length defaultChunkSize)
    (hread : FileChunk.read p = sliceChunk f defaultChunkSize chunks.length)
    (hsize : p.length = (FileChunk.read p).size) :
    IsStream filePath f (request :: (chunks ++ [p])) := by
  obtain ⟨hrequest, hreads, -, hsizes⟩ := h
  refine ⟨hrequest, ?_, ?_, ?_⟩
  · rw [List.length_append, List.length_singleton, List.range_succ, List.map_append,
      List.map_append, hreads]
    exact congrArg (_ ++ [·]) hread
  · rw [List.length_append, List.length_singleton]
    exact hlt
  · exact List.forall_mem_append.mpr ⟨hsizes, List.forall_mem_singleton.mpr hsize⟩

/-- What a packet of a stream is. -/
theorem IsStream.cases_mem {ps : List (List UInt8)} (h : IsStream filePath f ps) {p : List UInt8}
    (hp : p ∈ ps) : Announces filePath f p ∨
      (p.length = (FileChunk.read p).size ∧ ∃ i, FileChunk.read p = sliceChunk f defaultChunkSize i)
    := by
  cases ps with
  | nil => nomatch hp
  | cons request chunks =>
      obtain ⟨hrequest, hread, -, hsize⟩ := h
      rcases List.mem_cons.mp hp with rfl | hp
      · exact .inl hrequest
      · have hmem : FileChunk.read p ∈ chunks.map FileChunk.read := List.mem_map_of_mem hp
        rw [hread] at hmem
        obtain ⟨i, -, hi⟩ := List.mem_map.mp hmem
        exact .inr ⟨hsize p hp, i, hi.symm⟩

/-- **The packets of a stream** are whole, the server can read them, and they are none of a stress
    test. -/
theorem IsStream.fromClient {ps : List (List UInt8)} (h : IsStream filePath f ps) {p : List UInt8}
    (hp : p ∈ ps) : FromClient True p ∧ clientPacketOf p = none ∧
      isFileTransferPacket (packetId p) = true := by
  rcases h.cases_mem hp with hrequest | ⟨hsize, i, hread⟩
  · have hlen : p.length = 280 := hrequest.length
    have hid := hrequest.id
    refine ⟨⟨hrequest.wellFormed, ⟨by omega, ?_, ?_, ?_, fun _ => ⟨by omega, hrequest.terminated⟩,
      ?_⟩, fun _ => trivial⟩, ?_, ?_⟩
    · exact fun e => absurd (hid.symm.trans e) (by decide)
    · exact fun e => absurd (hid.symm.trans e) (by decide)
    · exact fun e => absurd (hid.symm.trans e) (by decide)
    · exact fun e => absurd (hid.symm.trans e) (by decide)
    · rw [clientPacketOf, hid]
      rfl
    · rw [hid]
      rfl
  · have hid : packetId p = fileDataChunk := congrArg FileChunk.id hread
    have hlen : p.length = 16 + (sliceChunk f defaultChunkSize i).chunkSize := by
      rw [hsize, hread]
      rfl
    refine ⟨⟨⟨by omega, hsize.symm⟩, ⟨by omega, ?_, ?_, ?_, ?_, fun _ => by omega⟩,
      fun _ => trivial⟩, ?_, ?_⟩
    · exact fun e => absurd (hid.symm.trans e) (by decide)
    · exact fun e => absurd (hid.symm.trans e) (by decide)
    · exact fun e => absurd (hid.symm.trans e) (by decide)
    · exact fun e => absurd (hid.symm.trans e) (by decide)
    · rw [clientPacketOf, hid]
      rfl
    · rw [hid]
      rfl

end Packets

/-! ## 2. The sender -/

namespace ClientSession

/-- What a step does beside the state of the session: `SendFile` sends the request, and each call
    of `SendNextChunk` has its own events. -/
def transferEvents (fs : FileSystem) (s : ClientSession) : SessionStep → List TransferEvent
  | .sendFile filePath mem sizeFails openFails =>
      if !fs.exists? filePath || sizeFails then []
      else
        ((s.manager.startFileSend fs filePath defaultChunkSize mem openFails).map (·.2.2)).getD []
  | l => s.events fs l

/-- The file is given to `SendFile`, if one is. -/
def SendsOnly (filePath : Path) : SessionStep → Prop
  | .sendFile path _ _ _ => path = filePath
  | _ => True

/-- **A session that sends one file** and has sent the packets `log` for it. -/
inductive Sending (fs : FileSystem) (filePath : Path) (f : List UInt8) (s : ClientSession) :
    List (List UInt8) → Prop where
  | fresh (h : s = connected) : Sending fs filePath f s []
  | serving (j : Nat) (request : List UInt8) (chunks : List (List UInt8))
      (h : s.Serving fs filePath f j) (hstream : IsStream filePath f (request :: chunks))
      (hj : chunks.length = min j (sliceCount f.length defaultChunkSize)) :
      Sending fs filePath f s (request :: chunks)
  | givenUp (request : List UInt8) (hstream : IsStream filePath f [request])
      (hnext : s.manager.nextConnectionId = 2) (hsendFiles : s.sendFiles = [])
      (hscheduled : s.scheduled = []) (hsent : s.sent = []) : Sending fs filePath f s [request]

section Sending

variable {fs : FileSystem} {filePath : Path} {f : List UInt8} {s s' : ClientSession}

theorem Sending.isStream {log : List (List UInt8)} (h : s.Sending fs filePath f log) :
    IsStream filePath f log := by
  cases h with
  | fresh => exact trivial
  | serving j request chunks h hstream => exact hstream
  | givenUp request hstream => exact hstream

/-- A second transfer is not created. -/
theorem Sending.fresh_of_next {log : List (List UInt8)} (h : s.Sending fs filePath f log)
    (hnext : s.manager.nextConnectionId = 1) : s = connected ∧ log = [] := by
  cases h with
  | fresh h => exact ⟨h, rfl⟩
  | serving j request chunks h => nomatch hnext.symm.trans h.next
  | givenUp request hstream hnext' => nomatch hnext.symm.trans hnext'

/-- A call for the transfer that does not fail: its slice is sent, if there is one. -/
theorem serving_call (hfile : fs.files filePath = some f) (hlen : f.length < 2 ^ 64) {j : Nat}
    {id : Nat} (hfind : s.manager.findTransfer id =
      some (1, contextAfter filePath f.length defaultChunkSize j))
    (mem : Memory) {request : List UInt8} {chunks : List (List UInt8)}
    (hstream : IsStream filePath f (request :: chunks))
    (hj : chunks.length = min j (sliceCount f.length defaultChunkSize)) :
    IsStream filePath f
        (request :: (chunks ++ packets (s.manager.sendNextChunk fs id mem .none).2.2)) ∧
      (chunks ++ packets (s.manager.sendNextChunk fs id mem .none).2.2).length =
        min (j + 1) (sliceCount f.length defaultChunkSize) := by
  obtain ⟨-, hcall⟩ := findTransfer_call mem hfile hlen (by decide) hfind
  obtain ⟨hread, hsize⟩ := packets_of_callEvents hcall
  generalize packets (s.manager.sendNextChunk fs id mem .none).2.2 = ps at hread hsize
  by_cases hlt : j < sliceCount f.length defaultChunkSize
  · rw [if_pos hlt] at hread
    obtain ⟨p, rfl, hp⟩ := List.map_eq_singleton_iff.mp hread
    have hlength : chunks.length = j := by omega
    refine ⟨hstream.snoc (by omega) (hlength ▸ hp) (hsize p (List.mem_singleton_self p)), ?_⟩
    rw [List.length_append, List.length_singleton]
    omega
  · rw [if_neg hlt] at hread
    obtain rfl := List.map_eq_nil_iff.mp hread
    rw [List.append_nil]
    exact ⟨hstream, by omega⟩

/-- A transfer is created, or nothing happens. -/
theorem Sending.sendFile (hfs : fs.Sized) (hfile : fs.files filePath = some f)
    (hfits : FitsHeader filePath f.length defaultChunkSize) {log : List (List UInt8)}
    (hI : s.Sending fs filePath f log) {mem : Memory} {sizeFails openFails : Bool}
    (hok : SingleFile fs s (.sendFile filePath mem sizeFails openFails))
    (h : s.next fs (.sendFile filePath mem sizeFails openFails) = some s') :
    s'.Sending fs filePath f
      (log ++ packets (s.transferEvents fs (.sendFile filePath mem sizeFails openFails))) := by
  unfold transferEvents
  dsimp only
  simp only [next] at h
  split at h
  · rename_i hskip
    obtain rfl := Option.some.inj h
    rw [if_pos hskip]
    exact (List.append_nil log).symm ▸ hI
  · rename_i hskip
    rw [if_neg hskip]
    obtain ⟨r, hr, e⟩ := Option.map_eq_some_iff.mp h
    rw [hr]
    rcases FileTransferManager.startFileSend_cases hr with
      ⟨hresult, -, hevents⟩ | ⟨content, packet, hfile', hopen, hresult, hpacket, hevents, hm⟩
    · rw [if_neg (by simp [hresult])] at e
      obtain rfl := e
      simp only [Option.map_some, Option.getD_some, hevents]
      exact (List.append_nil log).symm ▸ hI
    · obtain rfl : f = content := Option.some.inj (hfile.symm.trans hfile')
      have hsize : sizeFails = false := by
        rw [Bool.eq_false_iff]
        exact fun hs => hskip (by simp [hs])
      have hone : s.manager.nextConnectionId = 1 := by
        rcases hok with hn | hn | hn | hn
        · cases hn.symm.trans hfile
        · cases hn.symm.trans hsize
        · cases hn.symm.trans hopen
        · exact hn
      obtain ⟨rfl, rfl⟩ := hI.fresh_of_next hone
      rw [if_pos hresult, hm] at e
      obtain rfl := e
      simp only [Option.map_some, Option.getD_some, hevents]
      refine .serving 0 packet [] ⟨hfile, rfl, ?_, .inl ⟨rfl, rfl, rfl, rfl⟩⟩
        ⟨announces_createFileRequestPacket hfits hpacket, rfl, Nat.zero_le _,
          List.forall_mem_nil _⟩ (Nat.zero_min _).symm
      rw [contextAfter_zero (hfs _ _ hfile)]
      exact FileTransferManager.find?_setContext_self ..

/-- The call of SendNextChunk in SendFile: the first slice is sent, or SendFile returns false. -/
theorem Sending.firstChunk (hfs : fs.Sized) (hfile : fs.files filePath = some f)
    {log : List (List UInt8)} (hI : s.Sending fs filePath f log) {id : Nat} {mem : Memory}
    {faults : SendFaults} (h : s.next fs (.firstChunk id mem faults) = some s') :
    s'.Sending fs filePath f
      (log ++ packets (s.transferEvents fs (.firstChunk id mem faults))) := by
  obtain ⟨hmem, rfl⟩ := next_firstChunk_eq h
  unfold transferEvents events
  dsimp only
  rw [if_pos hmem]
  cases hI with
  | fresh h =>
      subst h
      nomatch hmem
  | givenUp request hstream hnext hsendFiles =>
      rw [hsendFiles] at hmem
      nomatch hmem
  | serving j request chunks hS hstream hj =>
      rcases hS.phase with ⟨rfl, hsendFiles, hscheduled, hsent⟩ | ⟨hsendFiles, -, -⟩
      case inr =>
        rw [hsendFiles] at hmem
        nomatch hmem
      obtain rfl : id = 1 := by
        rw [hsendFiles] at hmem
        exact List.mem_singleton.mp hmem
      have hfind := FileTransferManager.findTransfer_of_find? hS.find
      obtain ⟨hresult, hevents⟩ | e :=
        FileTransferManager.sendNextChunk_faults fs s.manager 1 mem faults
      · obtain rfl : chunks = [] := List.length_eq_zero_iff.mp (by omega)
        have hnext := (FileTransferManager.nextConnectionId_sendNextChunk fs s.manager 1 mem
          faults).trans hS.next
        rw [hevents]
        refine .givenUp request hstream hnext ?_ ?_ ?_
        · simp [hsendFiles]
        · simp [hscheduled, schedules]
        · simp [hresult, hsent]
      · obtain ⟨hstream', hlength⟩ := serving_call hfile (hfs _ _ hfile) hfind mem hstream hj
        obtain ⟨evs, hsend, hschedules⟩ := sendNextChunk_serves mem hfile (hfs _ _ hfile) hfind
          (by omega)
        rw [e, List.cons_append]
        rw [hsend] at hstream' hlength ⊢
        refine .serving 1 request _ ⟨hfile, hS.next, ?_, .inr ⟨?_, ?_, ?_⟩⟩ hstream' hlength
        · exact FileTransferManager.find?_setContext_self ..
        · simp [hsendFiles]
        · simp [hsent]
        · show s.scheduled ++ schedules evs = _
          rw [hscheduled, hschedules, List.nil_append]

/-- A detached thread calls: the next slice is sent, if there is one. -/
theorem Sending.thread (hfs : fs.Sized) (hfile : fs.files filePath = some f)
    {log : List (List UInt8)} (hI : s.Sending fs filePath f log) {id : Nat} {mem : Memory}
    (h : s.next fs (.thread id mem .none) = some s') :
    s'.Sending fs filePath f (log ++ packets (s.transferEvents fs (.thread id mem .none))) := by
  obtain ⟨hmem, rfl⟩ := next_thread_eq h
  unfold transferEvents events
  dsimp only
  rw [if_pos hmem]
  cases hI with
  | fresh h =>
      subst h
      nomatch hmem
  | givenUp request hstream hnext hsendFiles hscheduled =>
      rw [hscheduled] at hmem
      nomatch hmem
  | serving j request chunks hS hstream hj =>
      obtain rfl : id = 1 := by
        rcases hS.phase with ⟨-, -, hscheduled, -⟩ | ⟨-, -, hscheduled⟩
        · rw [hscheduled] at hmem
          nomatch hmem
        · rw [hscheduled] at hmem
          split at hmem
          · nomatch hmem
          · exact List.mem_singleton.mp hmem
      have hfind := FileTransferManager.findTransfer_of_find? hS.find
      obtain ⟨hstream', hlength⟩ := serving_call hfile (hfs _ _ hfile) hfind mem hstream hj
      exact .serving (j + 1) request _ (hS.thread hfs hmem mem) hstream' hlength

/-- **One step of the sender.** -/
theorem Sending.step (hfs : fs.Sized) (hfile : fs.files filePath = some f)
    (hfits : FitsHeader filePath f.length defaultChunkSize) {log : List (List UInt8)}
    (hI : s.Sending fs filePath f log) {l : SessionStep} (hok : SingleFile fs s l)
    (honly : SendsOnly filePath l) (h : s.next fs l = some s') :
    s'.Sending fs filePath f (log ++ packets (s.transferEvents fs l)) := by
  cases l with
  | sendFile path mem sizeFails openFails =>
      obtain rfl : path = filePath := honly
      exact hI.sendFile hfs hfile hfits hok h
  | firstChunk id mem faults => exact hI.firstChunk hfs hfile h
  | thread id mem faults =>
      obtain rfl : faults = .none := hok
      exact hI.thread hfs hfile h

/-- **A session at rest** whose SendFile returned true has sent all packets of its file. -/
theorem Sending.all_of_quiescent {log : List (List UInt8)} (hI : s.Sending fs filePath f log)
    (hq : s.Quiescent) (hsent : s.sent ≠ []) :
    log.length = sliceCount f.length defaultChunkSize + 1 := by
  cases hI with
  | fresh h =>
      subst h
      exact absurd rfl hsent
  | givenUp request hstream hnext hsendFiles hscheduled hnone => exact absurd hnone hsent
  | serving j request chunks hS hstream hj =>
      rcases hS.phase with ⟨-, hsendFiles, -, -⟩ | ⟨-, -, hscheduled⟩
      · nomatch hsendFiles.symm.trans hq.1
      · by_cases hdone : max 1 (sliceCount f.length defaultChunkSize) ≤ j
        · rw [List.length_cons, hj]
          omega
        · rw [if_neg hdone, hq.2] at hscheduled
          nomatch hscheduled

end Sending

end ClientSession

/-! ## 3. The receiver -/

/-- **A receiver that was given the first packets of a stream**: before the request nothing has
    happened; after it, its context counts the slices, and its file agrees with `f` on them. -/
inductive Taken (filePath dir : Path) (f : List UInt8) :
    List (List UInt8) → FilePacketSession → Prop where
  | nothing (s : FilePacketSession) (hnew : s.fileTransferManager = .new)
      (hdir : s.fileReceiveDirectory = dir) : Taken filePath dir f [] s
  | slices (request : List UInt8) (chunks : List (List UInt8)) (s : FilePacketSession)
      (context : FileTransferContext) (hdir : s.fileReceiveDirectory = dir)
      (hreceiving : Receiving (dir ++ 0x2F :: Path.filename filePath) f 1 chunks s.fs
        s.fileTransferManager)
      (hlast : s.fileTransferManager.transfers.rbegin? = some (1, context))
      (hsent : context.chunksSent = chunks.length)
      (htotal : context.chunksTotal = sliceCount f.length defaultChunkSize) :
      Taken filePath dir f (request :: chunks) s

section Taken

variable {filePath dir : Path} {f : List UInt8} {s : FilePacketSession} {env : Surroundings}

/-- The request is accepted. -/
theorem Taken.request (hne : f ≠ []) (hlen : f.length ≤ 2 ^ 44)
    (hnew : s.fileTransferManager = .new) (hdir : s.fileReceiveDirectory = dir)
    (hcalm : env.request = .none) {p : List UInt8} (hp : Announces filePath f p) :
    Taken filePath dir f [p] (s.onRecvPacket p env) ∧ s.events p env = [] := by
  have hpos : 1 ≤ f.length := List.length_pos_iff.mpr hne
  obtain ⟨fs', hstart, hfile⟩ := startFileReceive_none s.fs s.fileTransferManager
    s.fileReceiveDirectory p (hp.fileSize ▸ hpos) (by rw [hp.fileSize]; omega)
  have hpath : receivePath s.fileReceiveDirectory p = dir ++ 0x2F :: Path.filename filePath := by
    rw [receivePath, hp.filename, hdir]
  have hrun : s.onRecvPacket p env = ⟨fs', s.fileTransferManager.bump.setContext
      s.fileTransferManager.nextConnectionId
      (.receiving (receivePath s.fileReceiveDirectory p) p), s.fileReceiveDirectory⟩ := by
    unfold FilePacketSession.onRecvPacket FilePacketSession.handleFileRequest
    rw [if_pos hp.id, hcalm, hstart]
  have hlast := FileTransferManager.idsBelow_new.rbegin?_create
    (.receiving (receivePath s.fileReceiveDirectory p) p)
  refine ⟨?_, if_pos hp.id⟩
  rw [hrun, hnew]
  refine .slices p [] _ _ hdir ⟨⟨_, hlast, hpath, hp.fileSize, rfl⟩,
    hpath ▸ parentPath_receivePath _ _, _, hpath ▸ hfile, ?_⟩ hlast rfl hp.chunksTotal
  refine ⟨List.length_replicate.trans hp.fileSize, fun j hj => ?_⟩
  obtain ⟨q, hq, -⟩ := hj
  nomatch hq

/-- **A slice is accepted**, and reported if it is the last. -/
theorem Taken.chunk (hcount : sliceCount f.length defaultChunkSize < 2 ^ 32)
    (hlen : f.length ≤ 2 ^ 44) {request p : List UInt8} {chunks : List (List UInt8)}
    (hI : Taken filePath dir f (request :: chunks) s) (hcalm : env.chunk = .none)
    (hstream : IsStream filePath f (request :: (chunks ++ [p]))) :
    Taken filePath dir f (request :: (chunks ++ [p])) (s.onRecvPacket p env) ∧
      s.events p env = if chunks.length + 1 = sliceCount f.length defaultChunkSize then
        [.complete 1 true (dir ++ 0x2F :: Path.filename filePath)] else [] := by
  obtain ⟨hlt, hread, -⟩ := hstream.last
  cases hI with
  | slices _ _ _ context hdir hreceiving hlast hsent htotal =>
  have hid : packetId p = fileDataChunk := congrArg FileChunk.id hread
  have hnot : packetId p ≠ fileTransferRequest := fun e =>
    absurd (hid.symm.trans e) (by decide)
  have hslice : SlicesOf f [p] := List.forall_mem_singleton.mpr ⟨chunks.length, hlt, hread⟩
  obtain ⟨context', hlast', hpath, hsize, hchunk⟩ := hreceiving.context
  obtain rfl : context = context' := (Prod.mk.inj (Option.some.inj (hlast.symm.trans hlast'))).2
  -- the slice is the last just if it closes the reception
  have hclosed : context.closedBy (.read p) = decide (chunks.length + 1 =
      sliceCount f.length defaultChunkSize) := by
    have hu32 : u32 (chunks.length + 1) = chunks.length + 1 := Nat.mod_eq_of_lt (by omega)
    unfold FileTransferContext.closedBy
    rw [hread, hsent, htotal, hu32]
    unfold sliceChunk
    dsimp only
    rw [Bool.eq_iff_iff]
    simp only [Bool.or_eq_true, decide_eq_true_eq]
    omega
  obtain ⟨content, hfile, hagree⟩ := hreceiving.file
  obtain ⟨hid', hplace, hdata⟩ := sliceChunk_placed hlen hlt
  rw [← hread] at hid' hdata
  have hdlen : (FileChunk.read p).data.length = (FileChunk.read p).chunkSize := by
    rw [hread]
    rfl
  have hfit : (FileChunk.read p).chunkId * context.chunkSize + (FileChunk.read p).chunkSize ≤
      context.fileSize := by
    rw [← hdlen, hid', hchunk, hsize, hdata, length_slice]
    omega
  obtain ⟨-, -, fs', hrun, -⟩ := processFileChunk_calm env.time hlast
    (hpath.symm ▸ hreceiving.directory) (hpath ▸ hfile) (hagree.length.trans hsize.symm) hdlen hfit
    (by omega)
  have hmore := hreceiving.chunk hlen hslice hrun
  have hevents : s.events p env = if context.closedBy (.read p) then
      [.complete 1 true context.filePath] else [] := by
    unfold FilePacketSession.events
    rw [if_neg hnot, if_pos hid, hcalm, hrun]
  have hsession : s.onRecvPacket p env = ⟨fs', s.fileTransferManager.setContext 1
      (context.accept context.filePath (.read p)), s.fileReceiveDirectory⟩ := by
    unfold FilePacketSession.onRecvPacket FilePacketSession.handleFileChunk
    rw [if_neg hnot, if_pos hid, hcalm, hrun]
  rw [hevents, hclosed, hpath, hsession]
  refine ⟨.slices request _ _ (context.accept context.filePath (.read p)) hdir hmore
    (OrdMap.rbegin?_insert_self hlast _) ?_ ?_, ?_⟩
  · rw [FileTransferContext.chunksSent_accept, hsent, List.length_append, List.length_singleton]
    exact Nat.mod_eq_of_lt (by omega)
  · rw [FileTransferContext.chunksTotal_accept, htotal]
  · simp only [decide_eq_true_eq]

theorem Taken.directory {delivered : List (List UInt8)} (h : Taken filePath dir f delivered s) :
    s.fileReceiveDirectory = dir := by
  cases h with
  | nothing _ _ hdir => exact hdir
  | slices _ _ _ _ hdir => exact hdir

theorem length_le_of_fits (hfits : FitsHeader filePath f.length defaultChunkSize) :
    f.length ≤ 2 ^ 44 := by
  have hchunks : (f.length + 4096 - 1) / 4096 < 2 ^ 32 := hfits.chunks
  omega

theorem sliceCount_pos (hne : f ≠ []) : 0 < sliceCount f.length defaultChunkSize := by
  refine (lt_sliceCount (by decide) 0).mpr ?_
  rw [Nat.zero_mul]
  exact List.length_pos_iff.mpr hne

/-- **The next packet of a stream**: the file is reported with the last one. -/
theorem Taken.receive (hne : f ≠ []) (hfits : FitsHeader filePath f.length defaultChunkSize)
    {delivered : List (List UInt8)} (hI : Taken filePath dir f delivered s)
    (hrequest : env.request = .none) (hchunk : env.chunk = .none) {p : List UInt8}
    (hstream : IsStream filePath f (delivered ++ [p])) :
    Taken filePath dir f (delivered ++ [p]) (s.onRecvPacket p env) ∧
      s.events p env = if delivered.length = sliceCount f.length defaultChunkSize then
        [.complete 1 true (dir ++ 0x2F :: Path.filename filePath)] else [] := by
  have hlen := length_le_of_fits hfits
  cases delivered with
  | nil =>
      cases hI with
      | nothing _ hnew hdir =>
      obtain ⟨htaken, hevents⟩ := Taken.request hne hlen hnew hdir hrequest hstream.1
      refine ⟨htaken, hevents.trans (if_neg ?_).symm⟩
      exact Nat.ne_of_lt (sliceCount_pos hne)
  | cons request chunks => exact hI.chunk hfits.chunks hlen hchunk hstream

/-- **After all packets of the stream the file is there.** -/
theorem Taken.content (hfits : FitsHeader filePath f.length defaultChunkSize)
    {delivered : List (List UInt8)} (hI : Taken filePath dir f delivered s)
    (hstream : IsStream filePath f delivered)
    (hall : delivered.length = sliceCount f.length defaultChunkSize + 1) :
    s.fs.files (dir ++ 0x2F :: Path.filename filePath) = some f := by
  cases hI with
  | nothing => nomatch hall
  | slices request chunks _ context hdir hreceiving =>
      refine hreceiving.content (length_le_of_fits hfits) fun i hi => ?_
      obtain ⟨-, hread, -⟩ := hstream
      rw [List.length_cons] at hall
      have hmem : sliceChunk f defaultChunkSize i ∈ chunks.map FileChunk.read := by
        rw [hread]
        exact List.mem_map_of_mem (List.mem_range.mpr (by omega))
      exact List.mem_map.mp hmem

end Taken

/-! ## 4. The packet in its buffer -/

section Buffer

variable {filePath : Path} {f : List UInt8} {c : RecvCall}

/-- A string that ends inside the packet. -/
theorem takeWhile_take {P : UInt8 → Bool} : ∀ {l : List UInt8} {n : Nat},
    (∃ x ∈ l.take n, P x = false) → (l.take n).takeWhile P = l.takeWhile P
  | [], n, _ => by rw [List.take_nil]
  | a :: l, 0, ⟨x, hx, _⟩ => nomatch hx
  | a :: l, n + 1, ⟨x, hx, hP⟩ => by
      rw [List.take_succ_cons] at hx ⊢
      cases ha : P a with
      | false =>
          rw [List.takeWhile_cons_of_neg (by simp [ha]), List.takeWhile_cons_of_neg (by simp [ha])]
      | true =>
          rw [List.takeWhile_cons_of_pos ha, List.takeWhile_cons_of_pos ha]
          rcases List.mem_cons.mp hx with rfl | hx
          · rw [ha] at hP
            nomatch hP
          · rw [takeWhile_take ⟨x, hx, hP⟩]

/-- A request in its buffer. -/
theorem startFileReceive_packet (fs : FileSystem) (m : FileTransferManager) (dir : Path)
    (h280 : 280 ≤ c.len) (hnul : 0 ∈ c.packet.drop 4) (faults : ReceiveFaults) :
    startFileReceive fs m dir c.buffer faults = startFileReceive fs m dir c.packet faults := by
  have hname : FileHeader.filename c.packet = FileHeader.filename c.buffer := by
    unfold FileHeader.filename
    unfold RecvCall.packet at hnul ⊢
    rw [List.drop_take] at hnul ⊢
    exact takeWhile_take ⟨0, hnul, rfl⟩
  have hsize : FileHeader.fileSize c.packet = FileHeader.fileSize c.buffer := readLe_take (by omega)
  have htotal : FileHeader.chunksTotal c.packet = FileHeader.chunksTotal c.buffer :=
    readLe_take (by omega)
  unfold startFileReceive receivePath FileTransferContext.receiving
  rw [hname, hsize, htotal]

/-- A chunk in its buffer. -/
theorem processFileChunk_packet (fs : FileSystem) (m : FileTransferManager)
    (h16 : 16 + (FileChunk.read c.packet).chunkSize ≤ c.len) (time : Nat) (faults : ChunkFaults) :
    processFileChunk fs m (.read c.buffer) time faults =
      processFileChunk fs m (.read c.packet) time faults := by
  have hid : (FileChunk.read c.packet).chunkId = (FileChunk.read c.buffer).chunkId :=
    readLe_take (by omega)
  have hsize : (FileChunk.read c.packet).chunkSize = (FileChunk.read c.buffer).chunkSize :=
    readLe_take (by omega)
  have hlast : (FileChunk.read c.packet).isLast = (FileChunk.read c.buffer).isLast :=
    congrArg (· != 0) (readLe_take (by omega))
  have hdata : (FileChunk.read c.packet).data.take (FileChunk.read c.packet).chunkSize =
      (FileChunk.read c.buffer).data.take (FileChunk.read c.buffer).chunkSize := by
    rw [← hsize]
    show ((c.buffer.take c.len).drop 16).take _ = (c.buffer.drop 16).take _
    rw [List.drop_take, List.take_take, Nat.min_eq_left (by omega)]
  have hwrite : ∀ file fs context, writeChunk file fs context (.read c.buffer) faults =
      writeChunk file fs context (.read c.packet) faults := by
    intro file fs context
    unfold writeChunk chunkOffset
    rw [hid, hdata]
  have hstore : ∀ key file fs context, storeChunk m key file fs context (.read c.buffer) faults =
      storeChunk m key file fs context (.read c.packet) faults := by
    intro key file fs context
    unfold storeChunk FileTransferContext.received
    rw [hwrite, hsize, hlast]
  unfold processFileChunk
  simp only [hstore]

/-- **What stands in the buffer behind a packet of a stream does not matter.** -/
theorem onRecvPacket_packet (s : FilePacketSession) (hc : c.Framed) {ps : List (List UInt8)}
    (hstream : IsStream filePath f ps) (hmem : c.packet ∈ ps) (env : Surroundings) :
    s.onRecvPacket c.buffer env = s.onRecvPacket c.packet env ∧
      s.events c.buffer env = s.events c.packet env := by
  have hlen := hc.length_packet
  obtain ⟨hfrom, -⟩ := hstream.fromClient hmem
  have hid : packetId c.packet = packetId c.buffer :=
    GameSession.packetId_packet (hlen ▸ hfrom.fits.header)
  rcases hstream.cases_mem hmem with hp | ⟨hsize, i, hread⟩
  · have h280 : c.packet.length = 280 := hp.length
    have hrequest : packetId c.buffer = fileTransferRequest := hid.symm.trans hp.id
    unfold FilePacketSession.onRecvPacket FilePacketSession.events
      FilePacketSession.handleFileRequest
    rw [hid, if_pos hrequest, if_pos hrequest, if_pos hrequest, if_pos hrequest,
      startFileReceive_packet _ _ _ (by omega) hp.terminated]
    exact ⟨rfl, rfl⟩
  · have hchunk : packetId c.buffer = fileDataChunk := hid.symm.trans (congrArg FileChunk.id hread)
    have hnot : packetId c.buffer ≠ fileTransferRequest := fun e =>
      absurd (hchunk.symm.trans e) (by decide)
    have h16 : c.packet.length = 16 + (FileChunk.read c.packet).chunkSize := by
      rw [hsize, hread]
      rfl
    unfold FilePacketSession.onRecvPacket FilePacketSession.events
      FilePacketSession.handleFileChunk
    rw [hid, if_neg hnot, if_neg hnot, if_neg hnot, if_neg hnot, if_pos hchunk, if_pos hchunk,
      if_pos hchunk, if_pos hchunk, processFileChunk_packet _ _ (by omega)]
    exact ⟨rfl, rfl⟩

end Buffer

end ServerCore
