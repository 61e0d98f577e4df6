/-
  File:      ServerCore/FileSession.lean
  Subject:   ClientSession::SendFile (client.cpp) over a whole session: the SendFile calls and the
             detached threads that go on with the transfers.

  SendFile starts a transfer and then calls `SendNextChunk(session, 1)`, whatever id the transfer
  was given. So the first transfer of the session is served by every chain of calls, and no other
  ever is: SendNextChunk falls back on the id 1 only where its own is missing.

  * `sendNextChunk_faults`: a call fails and does nothing more, or does what it does without fault.
  * `sendFile_law`: with one transfer and threads that do not fail every session that comes to rest
    has sent its file; a transfer of any other id that SendFile reports as sent has sent nothing.
-/
import ServerCore.TransferSession

namespace ServerCore

open Trans

/-! ## 1. The session -/

/-- A `ClientSession` with its file transfers: `sendFiles` are the transfers whose SendFile has yet
    to call SendNextChunk, `scheduled` the ids the detached threads will call it with, and `sent`
    the transfers whose SendFile returned true. -/
structure ClientSession where
  manager : FileTransferManager
  sendFiles : List Nat
  scheduled : List Nat
  sent : List Nat

/-- The ids the detached threads were given. -/
def schedules (events : List TransferEvent) : List Nat :=
  events.filterMap fun
    | .schedule id => some id
    | _ => none

/-- What happens on a session. -/
inductive SessionStep where
  /-- `SendFile(filePath)` up to its call of SendNextChunk -/
  | sendFile (filePath : Path) (mem : Memory) (sizeFails openFails : Bool)
  /-- the call of SendNextChunk in the SendFile that created the transfer `id` -/
  | firstChunk (id : Nat) (mem : Memory) (faults : SendFaults)
  /-- a detached thread calls `SendNextChunk(session, id)` -/
  | thread (id : Nat) (mem : Memory) (faults : SendFaults)

namespace ClientSession

/-- A connected session, before its first file. -/
def connected : ClientSession := ⟨.new, [], [], []⟩

/-- One step; `none`: it is not possible, or ends the process. -/
def next (fs : FileSystem) (s : ClientSession) : SessionStep → Option ClientSession
  | .sendFile filePath mem sizeFails openFails =>
      if !fs.exists? filePath || sizeFails then some s
      else
        (s.manager.startFileSend fs filePath defaultChunkSize mem openFails).map fun r =>
          if r.1 then
            { s with manager := r.2.1, sendFiles := s.manager.nextConnectionId :: s.sendFiles }
          else s
  | .firstChunk id mem faults =>
      if id ∈ s.sendFiles then
        let r := s.manager.sendNextChunk fs 1 mem faults
        some
          { manager := r.2.1
            sendFiles := s.sendFiles.erase id
            scheduled := s.scheduled ++ schedules r.2.2
            sent := if r.1 then id :: s.sent else s.sent }
      else none
  | .thread id mem faults =>
      if id ∈ s.scheduled then
        let r := s.manager.sendNextChunk fs id mem faults
        some { s with manager := r.2.1, scheduled := s.scheduled.erase id ++ schedules r.2.2 }
      else none

/-- No call of SendNextChunk is running or to come. -/
def Quiescent (s : ClientSession) : Prop := s.sendFiles = [] ∧ s.scheduled = []

/-- **Every file sent is transmitted.** -/
def AllTransmitted (s : ClientSession) : Prop :=
  ∀ id ∈ s.sent, ∃ context, s.manager.transfers.find? id = some context ∧
    context.bytesSent = context.fileSize ∧ context.isCompleted = true

/-- **The condition**: a transfer is only created where none was, and no detached thread fails. -/
def SingleFile (fs : FileSystem) (s : ClientSession) : SessionStep → Prop
  | .sendFile filePath _ sizeFails openFails =>
      fs.files filePath = none ∨ sizeFails = true ∨ openFails = true ∨
        s.manager.nextConnectionId = 1
  | .firstChunk _ _ _ => True
  | .thread _ _ faults => faults = .none

/-- The session among those that receive too: its files stay as they are, and it stays connected. -/
def transferSession (fs : FileSystem) (dir : Path) (s : ClientSession) : TransferSession :=
  ⟨⟨fs, s.manager, dir⟩, true⟩

/-- **A step is one of a session that receives too**, or leaves the manager alone. -/
theorem next_transferSession {fs : FileSystem} {s s' : ClientSession} {l : SessionStep}
    (h : s.next fs l = some s') (dir : Path) :
    s'.transferSession fs dir = s.transferSession fs dir ∨
      ∃ l', (s.transferSession fs dir).next l' = some (s'.transferSession fs dir) := by
  cases l with
  | sendFile filePath mem sizeFails openFails =>
      simp only [next] at h
      split at h
      · exact .inl (Option.some.inj h ▸ rfl)
      · obtain ⟨⟨result, m, events⟩, hr, rfl⟩ := Option.map_eq_some_iff.mp h
        cases result with
        | false => exact .inl rfl
        | true =>
            exact .inr ⟨.startFileSend filePath defaultChunkSize mem openFails,
              Option.map_eq_some_iff.mpr ⟨_, hr, rfl⟩⟩
  | firstChunk id mem faults =>
      simp only [next] at h
      split at h
      · exact .inr ⟨.sendNextChunk 1 mem faults, Option.some.inj h ▸ rfl⟩
      · nomatch h
  | thread id mem faults =>
      simp only [next] at h
      split at h
      · exact .inr ⟨.sendNextChunk id mem faults, Option.some.inj h ▸ rfl⟩
      · nomatch h

/-- **The runs are runs of a session that receives too**, and receives nothing. -/
theorem reach_transferSession {fs : FileSystem} {s s' : ClientSession}
    (hr : Reach (next fs) always s s') (dir : Path) :
    Reach TransferSession.next always (s.transferSession fs dir) (s'.transferSession fs dir) := by
  have hsim : ∃ t, Reach TransferSession.next always (s.transferSession fs dir) t ∧
      s'.transferSession fs dir = t := by
    refine hr.simulate (R := fun s t => s.transferSession fs dir = t) rfl fun s s' l t ht _ hs => ?_
    subst ht
    rcases next_transferSession hs dir with hsame | ⟨l', hnext⟩
    · exact ⟨_, .start, hsame⟩
    · exact ⟨_, .step _ _ l' .start trivial hnext, rfl⟩
  obtain ⟨t, ht, rfl⟩ := hsim
  exact ht

end ClientSession

/-! ## 2. A call that may fail -/

namespace FileTransferManager

theorem sendSlice_faults (m : FileTransferManager) (key : Nat) (context : FileTransferContext)
    (content : List UInt8) (connectionId : Nat) (mem : Memory) (faults : SendFaults) :
    ((m.sendSlice key context content connectionId mem faults).1 = false ∧
        (m.sendSlice key context content connectionId mem faults).2.2 = []) ∨
      m.sendSlice key context content connectionId mem faults =
        m.sendSlice key context content connectionId mem .none := by
  by_cases hread : faults.read = true
  · refine .inl ?_
    unfold sendSlice
    dsimp only
    rw [if_pos hread]
    exact ⟨rfl, rfl⟩
  · have hnone : ¬ SendFaults.none.read = true := by simp [SendFaults.none]
    by_cases halloc : faults.alloc = true
    · refine .inl ?_
      unfold sendSlice
      dsimp only
      rw [if_neg hread, halloc, createFileChunkPacket_of_allocFails]
      exact ⟨rfl, rfl⟩
    · refine .inr ?_
      have halloc' : faults.alloc = SendFaults.none.alloc := by simpa [SendFaults.none] using halloc
      unfold sendSlice
      dsimp only
      rw [if_neg hread, if_neg hnone, halloc']

/-- **A call fails and has no event, or does what it does without fault.** -/
theorem sendNextChunk_faults (fs : FileSystem) (m : FileTransferManager) (connectionId : Nat)
    (mem : Memory) (faults : SendFaults) :
    ((m.sendNextChunk fs connectionId mem faults).1 = false ∧
        (m.sendNextChunk fs connectionId mem faults).2.2 = []) ∨
      m.sendNextChunk fs connectionId mem faults = m.sendNextChunk fs connectionId mem .none := by
  unfold sendNextChunk
  rcases m.findTransfer connectionId with _ | ⟨key, context⟩
  · exact .inr rfl
  · dsimp only
    split
    · exact .inr rfl
    · split
      · exact .inr rfl
      · rename_i content _
        by_cases hopen : (!context.fileStream && faults.reopen) = true
        · rw [if_pos hopen]
          exact .inl ⟨rfl, rfl⟩
        · have hnone : ¬ ((!context.fileStream && SendFaults.none.reopen) = true) := by
            simp [SendFaults.none]
          rw [if_neg hopen, if_neg hnone]
          split
          · exact .inr rfl
          · exact m.sendSlice_faults key context.opened content connectionId mem faults

/-- **A thread is given the id of the call that starts it.** -/
theorem schedules_sendNextChunk (fs : FileSystem) (m : FileTransferManager) (connectionId : Nat)
    (mem : Memory) (faults : SendFaults) :
    ∀ id ∈ schedules (m.sendNextChunk fs connectionId mem faults).2.2, id = connectionId := by
  have h := m.sendNextChunk_outcome fs connectionId mem faults
  generalize m.sendNextChunk fs connectionId mem faults = r at h ⊢
  rcases h with _ | _ | _ | _ | _
  · exact fun _ h => nomatch h
  · exact fun _ h => nomatch h
  · exact fun _ h => nomatch h
  · exact fun _ h => nomatch h
  · exact fun _ h => List.mem_singleton.mp h

end FileTransferManager

/-! ## 3. A session with one transfer -/

/-- `file_size` reports the size of every file. -/
def FileSystem.Sized (fs : FileSystem) : Prop :=
  ∀ filePath content, fs.files filePath = some content → content.length < 2 ^ 64

theorem FileSystem.sized_empty : FileSystem.empty.Sized := fun _ _ h => nomatch h

theorem FileSystem.Sized.setFile {fs : FileSystem} (hfs : fs.Sized) {filePath : Path}
    {content : List UInt8} (hlen : content.length < 2 ^ 64) :
    (fs.setFile filePath content).Sized := by
  intro p c h
  by_cases hp : Path.SameFile p filePath
  · rw [FileSystem.files_congr _ hp, FileSystem.files_setFile_self] at h
    exact Option.some.inj h ▸ hlen
  · rw [fs.files_setFile_of_ne content hp] at h
    exact hfs p c h

/-- **A call for a transfer that is not completed** sends its next slice and, unless it was the
    last, leaves one thread that will call again. -/
theorem sendNextChunk_serves {fs : FileSystem} {m : FileTransferManager} {filePath : Path}
    {f : List UInt8} {connectionId key j : Nat} (mem : Memory)
    (hfile : fs.files filePath = some f) (hlen : f.length < 2 ^ 64)
    (hfind : m.findTransfer connectionId =
      some (key, contextAfter filePath f.length defaultChunkSize j))
    (hnot : ¬ max 1 (sliceCount f.length defaultChunkSize) ≤ j) :
    ∃ events, m.sendNextChunk fs connectionId mem .none =
        (true, m.setContext key (contextAfter filePath f.length defaultChunkSize (j + 1)), events) ∧
      schedules events = if max 1 (sliceCount f.length defaultChunkSize) ≤ j + 1 then []
        else [connectionId] := by
  have hc : 1 ≤ defaultChunkSize := by decide
  by_cases hj : j < sliceCount f.length defaultChunkSize
  · obtain ⟨p, -, -, hsend⟩ := sendNextChunk_of_lt mem hfile hlen hc hfind hj
    refine ⟨_, hsend, ?_⟩
    by_cases hl : j + 1 = sliceCount f.length defaultChunkSize
    · rw [if_pos hl, if_pos (by omega)]
      rfl
    · rw [if_neg hl, if_neg (by omega)]
      rfl
  · have hN := lt_sliceCount (n := f.length) hc 0
    obtain rfl : f = [] := List.length_eq_zero_iff.mp (by omega)
    obtain rfl : j = 0 := by omega
    refine ⟨_, sendNextChunk_of_empty mem hfile hc hfind, ?_⟩
    rw [if_pos (by omega)]
    rfl

namespace ClientSession

/-- The transfer 1 after `j` calls, and the call that is to come for it. -/
structure Serving (fs : FileSystem) (s : ClientSession) (filePath : Path) (f : List UInt8)
    (j : Nat) : Prop where
  file : fs.files filePath = some f
  next : s.manager.nextConnectionId = 2
  find : s.manager.transfers.find? 1 = some (contextAfter filePath f.length defaultChunkSize j)
  phase : (j = 0 ∧ s.sendFiles = [1] ∧ s.scheduled = [] ∧ s.sent = []) ∨
    (s.sendFiles = [] ∧ s.sent = [1] ∧ s.scheduled =
      if max 1 (sliceCount f.length defaultChunkSize) ≤ j then [] else [1])

/-- **A session with at most one transfer**: none so far, one that is served, or one whose SendFile
    returned false. -/
inductive Progress (fs : FileSystem) (s : ClientSession) : Prop where
  | fresh (h : s = connected)
  | serving (filePath : Path) (f : List UInt8) (j : Nat) (h : s.Serving fs filePath f j)
  | givenUp (hnext : s.manager.nextConnectionId = 2) (hsendFiles : s.sendFiles = [])
      (hscheduled : s.scheduled = []) (hsent : s.sent = [])

/-- SendFile up to its call of SendNextChunk: nothing, or a new transfer. -/
theorem next_sendFile_cases {fs : FileSystem} {s s' : ClientSession} {filePath : Path}
    {mem : Memory} {sizeFails openFails : Bool}
    (h : s.next fs (.sendFile filePath mem sizeFails openFails) = some s') :
    s' = s ∨ ∃ content, fs.files filePath = some content ∧ sizeFails = false ∧ openFails = false ∧
      s' = { s with
        manager := s.manager.bump.setContext s.manager.nextConnectionId
          ⟨filePath, true, u64 content.length, 0, defaultChunkSize,
            chunksTotal (u64 content.length) defaultChunkSize, 0, false⟩
        sendFiles := s.manager.nextConnectionId :: s.sendFiles } := by
  simp only [next] at h
  split at h
  · exact .inl (Option.some.inj h).symm
  · rename_i hexists
    obtain ⟨r, hr, e⟩ := Option.map_eq_some_iff.mp h
    obtain ⟨hresult, -, -⟩ | ⟨content, packet, hfile, hopen, hresult, -, -, hm⟩ :=
      FileTransferManager.startFileSend_cases hr
    · rw [if_neg (by simp [hresult])] at e
      exact .inl e.symm
    · have hsize : sizeFails = false := by
        rw [Bool.eq_false_iff]
        exact fun hs => hexists (by simp [hs])
      rw [if_pos hresult, hm] at e
      exact .inr ⟨content, hfile, hsize, hopen, e.symm⟩

theorem next_firstChunk_eq {fs : FileSystem} {s s' : ClientSession} {id : Nat} {mem : Memory}
    {faults : SendFaults} (h : s.next fs (.firstChunk id mem faults) = some s') :
    id ∈ s.sendFiles ∧ s' =
      { manager := (s.manager.sendNextChunk fs 1 mem faults).2.1
        sendFiles := s.sendFiles.erase id
        scheduled := s.scheduled ++ schedules (s.manager.sendNextChunk fs 1 mem faults).2.2
        sent := if (s.manager.sendNextChunk fs 1 mem faults).1 then id :: s.sent else s.sent } := by
  simp only [next] at h
  split at h
  · rename_i hmem
    exact ⟨hmem, (Option.some.inj h).symm⟩
  · nomatch h

theorem next_thread_eq {fs : FileSystem} {s s' : ClientSession} {id : Nat} {mem : Memory}
    {faults : SendFaults} (h : s.next fs (.thread id mem faults) = some s') :
    id ∈ s.scheduled ∧ s' = { s with
      manager := (s.manager.sendNextChunk fs id mem faults).2.1
      scheduled := s.scheduled.erase id ++
        schedules (s.manager.sendNextChunk fs id mem faults).2.2 } := by
  simp only [next] at h
  split at h
  · rename_i hmem
    exact ⟨hmem, (Option.some.inj h).symm⟩
  · nomatch h

/-- The first call for the transfer: its SendFile returns true and the transfer is served, or the
    call failed and SendFile returns false. -/
theorem Serving.firstChunk {fs : FileSystem} (hfs : fs.Sized) {s : ClientSession} {filePath : Path}
    {f : List UInt8} {id j : Nat} (hS : s.Serving fs filePath f j) (hmem : id ∈ s.sendFiles)
    (mem : Memory) (faults : SendFaults) :
    Progress fs
      { manager := (s.manager.sendNextChunk fs 1 mem faults).2.1
        sendFiles := s.sendFiles.erase id
        scheduled := s.scheduled ++ schedules (s.manager.sendNextChunk fs 1 mem faults).2.2
        sent := if (s.manager.sendNextChunk fs 1 mem faults).1 then id :: s.sent else s.sent } := by
  rcases hS.phase with ⟨rfl, hsendFiles, hscheduled, hsent⟩ | ⟨hsendFiles, -, -⟩
  case inr =>
    rw [hsendFiles] at hmem
    nomatch hmem
  obtain rfl : id = 1 := by
    rw [hsendFiles] at hmem
    exact List.mem_singleton.mp hmem
  have hnext := (FileTransferManager.nextConnectionId_sendNextChunk fs s.manager 1 mem faults).trans
    hS.next
  obtain ⟨hresult, hevents⟩ | e :=
    FileTransferManager.sendNextChunk_faults fs s.manager 1 mem faults
  · refine .givenUp hnext ?_ ?_ ?_
    · simp [hsendFiles]
    · simp [hscheduled, hevents, schedules]
    · simp [hresult, hsent]
  · obtain ⟨events, hsend, hschedules⟩ := sendNextChunk_serves mem hS.file (hfs _ _ hS.file)
      (FileTransferManager.findTransfer_of_find? hS.find) (by omega)
    rw [e, hsend] at hnext ⊢
    refine .serving filePath f 1 ⟨hS.file, hnext, ?_, .inr ⟨?_, ?_, ?_⟩⟩
    · exact FileTransferManager.find?_setContext_self ..
    · simp [hsendFiles]
    · simp [hsent]
    · show s.scheduled ++ schedules events = _
      rw [hscheduled, hschedules, List.nil_append]

/-- The thread that serves the transfer calls. -/
theorem Serving.thread {fs : FileSystem} (hfs : fs.Sized) {s : ClientSession} {filePath : Path}
    {f : List UInt8} {id j : Nat} (hS : s.Serving fs filePath f j) (hmem : id ∈ s.scheduled)
    (mem : Memory) :
    Serving fs
      { s with
        manager := (s.manager.sendNextChunk fs id mem .none).2.1
        scheduled := s.scheduled.erase id ++
          schedules (s.manager.sendNextChunk fs id mem .none).2.2 } filePath f (j + 1) := by
  rcases hS.phase with ⟨-, -, hscheduled, -⟩ | ⟨hsendFiles, hsent, hscheduled⟩
  · rw [hscheduled] at hmem
    nomatch hmem
  by_cases hdone : max 1 (sliceCount f.length defaultChunkSize) ≤ j
  · rw [if_pos hdone] at hscheduled
    rw [hscheduled] at hmem
    nomatch hmem
  rw [if_neg hdone] at hscheduled
  obtain rfl : id = 1 := by
    rw [hscheduled] at hmem
    exact List.mem_singleton.mp hmem
  obtain ⟨events, hsend, hschedules⟩ := sendNextChunk_serves mem hS.file (hfs _ _ hS.file)
    (FileTransferManager.findTransfer_of_find? hS.find) hdone
  rw [hsend]
  refine ⟨hS.file, hS.next, FileTransferManager.find?_setContext_self ..,
    .inr ⟨hsendFiles, hsent, ?_⟩⟩
  show s.scheduled.erase 1 ++ schedules events = _
  rw [hscheduled, hschedules]
  rfl

/-- **One step of a session with at most one transfer.** -/
theorem Progress.step {fs : FileSystem} (hfs : fs.Sized) {s s' : ClientSession} {l : SessionStep}
    (hI : s.Progress fs) (hok : SingleFile fs s l) (h : s.next fs l = some s') :
    s'.Progress fs := by
  rcases l with ⟨filePath, mem, sizeFails, openFails⟩ | ⟨id, mem, faults⟩ | ⟨id, mem, faults⟩
  · rcases next_sendFile_cases h with rfl | ⟨content, hfile, hsize, hopen, rfl⟩
    · exact hI
    · have hone : s.manager.nextConnectionId = 1 := by
        rcases hok with hn | hn | hn | hn
        · nomatch hn.symm.trans hfile
        · nomatch hn.symm.trans hsize
        · nomatch hn.symm.trans hopen
        · exact hn
      rcases hI with rfl | ⟨_, _, _, hS⟩ | ⟨hnext, -, -, -⟩
      · refine .serving filePath content 0 ⟨hfile, rfl, ?_, .inl ⟨rfl, rfl, rfl, rfl⟩⟩
        rw [contextAfter_zero (hfs _ _ hfile)]
        exact FileTransferManager.find?_setContext_self ..
      · nomatch hone.symm.trans hS.next
      · nomatch hone.symm.trans hnext
  · obtain ⟨hmem, rfl⟩ := next_firstChunk_eq h
    rcases hI with rfl | ⟨filePath, f, j, hS⟩ | ⟨-, hsendFiles, -, -⟩
    · nomatch hmem
    · exact hS.firstChunk hfs hmem mem faults
    · rw [hsendFiles] at hmem
      nomatch hmem
  · obtain ⟨hmem, rfl⟩ := next_thread_eq h
    obtain rfl : faults = .none := hok
    rcases hI with rfl | ⟨filePath, f, j, hS⟩ | ⟨-, -, hscheduled, -⟩
    · nomatch hmem
    · exact .serving filePath f (j + 1) (hS.thread hfs hmem mem)
    · rw [hscheduled] at hmem
      nomatch hmem

/-- What a session with at most one transfer has sent once it is at rest. -/
theorem Progress.allTransmitted {fs : FileSystem} {s : ClientSession} (hI : s.Progress fs)
    (hq : s.Quiescent) : s.AllTransmitted := by
  rcases hI with rfl | ⟨filePath, f, j, hS⟩ | ⟨-, -, -, hsent⟩
  · exact fun id h => nomatch h
  · rcases hS.phase with ⟨-, hsendFiles, -, -⟩ | ⟨-, hsent, hscheduled⟩
    · nomatch hsendFiles.symm.trans hq.1
    · by_cases hdone : max 1 (sliceCount f.length defaultChunkSize) ≤ j
      · intro id hid
        rw [hsent] at hid
        obtain rfl : id = 1 := List.mem_singleton.mp hid
        refine ⟨_, hS.find, ?_, decide_eq_true hdone⟩
        show min (j * sliceSize defaultChunkSize) f.length = f.length
        have hj : j < sliceCount f.length defaultChunkSize ↔ j * sliceSize defaultChunkSize <
            f.length := lt_sliceCount (by decide) j
        omega
      · rw [if_neg hdone, hq.2] at hscheduled
        nomatch hscheduled
  · rw [AllTransmitted, hsent]
    exact fun id h => nomatch h

/-! ## 4. Every session -/

/-- **Only the transfer 1 is served**: every thread calls for it, and all others are as they were
    created. -/
structure OnlyFirst (s : ClientSession) : Prop where
  scheduled : ∀ id ∈ s.scheduled, id = 1
  idle : ∀ id context, id ≠ 1 → s.manager.transfers.find? id = some context →
    context.bytesSent = 0 ∧ context.isCompleted = false

/-- A call for the id 1 works on the transfer 1. -/
theorem findTransfer_one_key {m : FileTransferManager} {key : Nat} {context : FileTransferContext}
    (h : m.findTransfer 1 = some (key, context)) : key = 1 := by
  unfold FileTransferManager.findTransfer at h
  split at h
  · exact (congrArg Prod.fst (Option.some.inj h)).symm
  · obtain ⟨c, -, e⟩ := Option.map_eq_some_iff.mp h
    exact (congrArg Prod.fst e).symm

/-- A call for the id 1 leaves the other transfers alone. -/
theorem find?_sendNextChunk_one {fs : FileSystem} (m : FileTransferManager) (mem : Memory)
    (faults : SendFaults) {id : Nat} (hid : id ≠ 1) :
    (m.sendNextChunk fs 1 mem faults).2.1.transfers.find? id = m.transfers.find? id := by
  obtain e | ⟨key, context, context', hkey, e⟩ :=
    FileTransferManager.sendNextChunk_cases fs m 1 mem faults
  · rw [e]
  · rw [e, FileTransferManager.find?_setContext_of_ne m context' (findTransfer_one_key hkey ▸ hid)]

theorem OnlyFirst.step {fs : FileSystem} {s s' : ClientSession} {l : SessionStep}
    (hI : s.OnlyFirst) (h : s.next fs l = some s') : s'.OnlyFirst := by
  rcases l with ⟨filePath, mem, sizeFails, openFails⟩ | ⟨id, mem, faults⟩ | ⟨id, mem, faults⟩
  · rcases next_sendFile_cases h with rfl | ⟨content, -, -, -, rfl⟩
    · exact hI
    · refine ⟨hI.scheduled, fun id context hid hfind => ?_⟩
      rcases FileTransferManager.find?_setContext_cases hfind with ⟨-, rfl⟩ | hbefore
      · exact ⟨rfl, rfl⟩
      · exact hI.idle id context hid hbefore
  · obtain ⟨-, rfl⟩ := next_firstChunk_eq h
    refine ⟨fun i hi => ?_, fun i context hid hfind => ?_⟩
    · rcases List.mem_append.mp hi with hi | hi
      · exact hI.scheduled i hi
      · exact s.manager.schedules_sendNextChunk fs 1 mem faults i hi
    · exact hI.idle i context hid (find?_sendNextChunk_one s.manager mem faults hid ▸ hfind)
  · obtain ⟨hmem, rfl⟩ := next_thread_eq h
    obtain rfl := hI.scheduled id hmem
    refine ⟨fun i hi => ?_, fun i context hid hfind => ?_⟩
    · rcases List.mem_append.mp hi with hi | hi
      · exact hI.scheduled i (List.mem_of_mem_erase hi)
      · exact s.manager.schedules_sendNextChunk fs 1 mem faults i hi
    · exact hI.idle i context hid (find?_sendNextChunk_one s.manager mem faults hid ▸ hfind)

theorem OnlyFirst.not_allTransmitted {s : ClientSession} (hI : s.OnlyFirst) {id : Nat}
    (hid : id ∈ s.sent) (hne : id ≠ 1) : ¬ s.AllTransmitted := by
  intro hall
  obtain ⟨context, hfind, -, hcompleted⟩ := hall id hid
  exact absurd hcompleted (Bool.eq_false_iff.mp (hI.idle id context hne hfind).2)

/-- SendFile up to its call of SendNextChunk, where nothing fails. -/
theorem next_sendFile_of_file {fs : FileSystem} (s : ClientSession) {filePath : Path}
    {f : List UInt8} (mem : Memory) (hfile : fs.files filePath = some f) (hlen : f.length < 2 ^ 64)
    (hname : (Path.filename filePath).length < sizeofFilename) :
    s.next fs (.sendFile filePath mem false false) = some { s with
      manager := s.manager.bump.setContext s.manager.nextConnectionId
        (contextAfter filePath f.length defaultChunkSize 0)
      sendFiles := s.manager.nextConnectionId :: s.sendFiles } := by
  obtain ⟨packet, -, hstart⟩ := startFileSend_of_file s.manager defaultChunkSize mem hfile
    hlen hname
  have hexists : ¬ ((!fs.exists? filePath || false) = true) := by
    simp [FileSystem.exists?, hfile]
  simp only [next]
  rw [if_neg hexists, hstart]
  rfl

/-- The call of SendNextChunk in SendFile, where it returns true. -/
theorem next_firstChunk_of_true {fs : FileSystem} {s : ClientSession} {id : Nat} {mem : Memory}
    {faults : SendFaults} {m' : FileTransferManager} {events : List TransferEvent}
    (hmem : id ∈ s.sendFiles)
    (hsend : s.manager.sendNextChunk fs 1 mem faults = (true, m', events)) :
    s.next fs (.firstChunk id mem faults) =
      some ⟨m', s.sendFiles.erase id, s.scheduled ++ schedules events, id :: s.sent⟩ := by
  simp only [next]
  rw [if_pos hmem, hsend]
  rfl

/-- A session whose first file fits in one chunk has sent it after its SendFile. -/
theorem reach_one_chunk {fs : FileSystem} {filePath : Path} {f : List UInt8}
    (hfile : fs.files filePath = some f) (hlen : f.length ≤ defaultChunkSize)
    (hname : (Path.filename filePath).length < sizeofFilename) :
    ∃ s, Reach (next fs) (SingleFile fs) connected s ∧ s.Quiescent ∧ s.sent = [1] ∧
      s.Serving fs filePath f 1 := by
  have h4096 : defaultChunkSize = 4096 := rfl
  have hdone : max 1 (sliceCount f.length defaultChunkSize) ≤ 1 := by
    have h1 : 1 * sliceSize defaultChunkSize = 4096 := rfl
    have h1' : 1 < sliceCount f.length defaultChunkSize ↔ 1 * sliceSize defaultChunkSize <
        f.length := lt_sliceCount (by decide) 1
    omega
  have hok : SingleFile fs connected (.sendFile filePath (fun _ => 0) false false) :=
    Or.inr (Or.inr (Or.inr rfl))
  have h₁ := connected.next_sendFile_of_file (fun _ => 0) hfile (by omega) hname
  generalize hs₁ : ({ connected with
    manager := connected.manager.bump.setContext connected.manager.nextConnectionId
      (contextAfter filePath f.length defaultChunkSize 0)
    sendFiles := connected.manager.nextConnectionId :: connected.sendFiles } :
      ClientSession) = s₁ at h₁
  have hphase : s₁.sendFiles = [1] ∧ s₁.scheduled = [] ∧ s₁.sent = [] := hs₁ ▸ ⟨rfl, rfl, rfl⟩
  have hS₁ : s₁.Serving fs filePath f 0 := by
    refine ⟨hfile, hs₁ ▸ rfl, ?_, .inl ⟨rfl, hphase⟩⟩
    rw [← hs₁]
    exact FileTransferManager.find?_setContext_self ..
  obtain ⟨hsendFiles, hscheduled, hsent⟩ := hphase
  obtain ⟨events, hsend, hschedules⟩ := sendNextChunk_serves (fun _ => 0) hfile (by omega)
    (FileTransferManager.findTransfer_of_find? hS₁.find) (by omega)
  rw [if_pos hdone] at hschedules
  have h₂ := next_firstChunk_of_true (hsendFiles ▸ List.mem_singleton_self 1) hsend
  rw [hsendFiles, hscheduled, hsent, hschedules] at h₂
  refine ⟨_, .step _ _ (.firstChunk 1 _ _) (.step _ _ _ .start hok h₁) trivial h₂, ⟨rfl, rfl⟩, rfl,
    hfile, hS₁.next, FileTransferManager.find?_setContext_self .., .inr ⟨rfl, rfl, ?_⟩⟩
  rw [if_pos hdone]
  rfl

/-- The second SendFile calls SendNextChunk for the first transfer, which is completed. -/
theorem reach_two_files {fs : FileSystem} {filePath filePath' : Path} {f g : List UInt8}
    (hfile : fs.files filePath = some f) (hlen : f.length ≤ defaultChunkSize)
    (hname : (Path.filename filePath).length < sizeofFilename)
    (hfile' : fs.files filePath' = some g) (hlen' : g.length < 2 ^ 64)
    (hname' : (Path.filename filePath').length < sizeofFilename) :
    ∃ s, Reach (next fs) always connected s ∧ s.Quiescent ∧ s.sent = [2, 1] := by
  obtain ⟨s, hr, hq, hsent, hS⟩ := reach_one_chunk hfile hlen hname
  have hdone : max 1 (sliceCount f.length defaultChunkSize) ≤ 1 := by
    rcases hS.phase with ⟨h, -⟩ | ⟨-, -, hscheduled⟩
    · nomatch h
    · by_cases hdone : max 1 (sliceCount f.length defaultChunkSize) ≤ 1
      · exact hdone
      · rw [if_neg hdone, hq.2] at hscheduled
        nomatch hscheduled
  have h₁ := s.next_sendFile_of_file (fun _ => 0) hfile' hlen' hname'
  have hfind : (s.manager.bump.setContext s.manager.nextConnectionId
      (contextAfter filePath' g.length defaultChunkSize 0)).transfers.find? 1 =
        some (contextAfter filePath f.length defaultChunkSize 1) := by
    rw [FileTransferManager.find?_setContext_of_ne s.manager.bump _ (by rw [hS.next]; decide)]
    exact hS.find
  have hsend : FileTransferManager.sendNextChunk fs _ 1 (fun _ => 0) .none = (true, _, []) :=
    sendNextChunk_of_done (fun _ => 0) (FileTransferManager.findTransfer_of_find? hfind) hdone
  have h₂ := next_firstChunk_of_true (s := { s with
    manager := s.manager.bump.setContext s.manager.nextConnectionId
      (contextAfter filePath' g.length defaultChunkSize 0)
    sendFiles := s.manager.nextConnectionId :: s.sendFiles }) List.mem_cons_self hsend
  refine ⟨_, .step _ _ _ (.step _ _ _ (hr.mono (fun _ _ _ => trivial) fun _ _ _ h => h) trivial h₁)
    trivial h₂, ⟨?_, ?_⟩, ?_⟩
  · show (s.manager.nextConnectionId :: s.sendFiles).erase s.manager.nextConnectionId = []
    rw [List.erase_cons_head, hq.1]
  · show s.scheduled ++ schedules [] = []
    rw [hq.2]
    rfl
  · show s.manager.nextConnectionId :: s.sent = [2, 1]
    rw [hS.next, hsent]

theorem onlyFirst_of_reach {fs : FileSystem} {s : ClientSession}
    (hr : Reach (next fs) always connected s) : s.OnlyFirst := by
  refine hr.invariant ⟨fun _ h => (nomatch h), fun _ _ _ h => (nomatch h)⟩ ?_
  exact fun _ _ _ hI _ h => hI.step h

/-- **The law of SendFile.** A session that creates at most one transfer, and whose threads do not
    fail, has transmitted every file it sent whenever it is at rest; and as soon as SendFile has
    returned true for a transfer with another id than 1, not every file sent is transmitted. -/
theorem sendFile_law (fs : FileSystem) (hfs : fs.Sized) :
    (∀ s, Reach (next fs) (SingleFile fs) connected s → s.Quiescent → s.AllTransmitted) ∧
      ∀ s, Reach (next fs) always connected s → ∀ id ∈ s.sent, id ≠ 1 → ¬ s.AllTransmitted := by
  constructor
  · intro s hr
    have hI : s.Progress fs :=
      hr.invariant (.fresh rfl) fun _ _ _ hI hok h => hI.step hfs hok h
    exact hI.allTransmitted
  · intro s hr id hid hne
    exact (onlyFirst_of_reach hr).not_allTransmitted hid hne

/-- One file is sent; of two, the second is not. -/
theorem sendFile_law_two_files :
    let fs := (FileSystem.empty.setFile [0x61] [7]).setFile [0x62] [8]
    (∃ s, Reach (next fs) (SingleFile fs) connected s ∧ s.Quiescent ∧ s.sent = [1] ∧
        s.AllTransmitted) ∧
      ∃ s, Reach (next fs) always connected s ∧ s.sent = [2, 1] ∧ ¬ s.AllTransmitted := by
  intro fs
  have hfs : fs.Sized := (FileSystem.sized_empty.setFile (by decide)).setFile (by decide)
  have hfileA : fs.files [0x61] = some [7] := rfl
  have hfileB : fs.files [0x62] = some [8] := rfl
  constructor
  · obtain ⟨s, hr, hq, hsent, -⟩ := reach_one_chunk hfileA (by decide) (by decide)
    exact ⟨s, hr, hq, hsent, (sendFile_law fs hfs).1 s hr hq⟩
  · obtain ⟨s, hr, -, hsent⟩ := reach_two_files hfileA (by decide) (by decide) hfileB (by decide)
      (by decide)
    exact ⟨s, hr, hsent, (sendFile_law fs hfs).2 s hr 2 (by simp [hsent]) (by decide)⟩

/-- **The second file is never sent**: SendFile returns true for both, the session is at rest, and
    the transfer 2 is not completed. -/
theorem second_file_not_transmitted :
    let fs := (FileSystem.empty.setFile [0x61] [7]).setFile [0x62] [8]
    ∃ s, Reach (next fs) always connected s ∧ s.Quiescent ∧ s.sent = [2, 1] ∧
      ¬ s.AllTransmitted := by
  intro fs
  have hfileA : fs.files [0x61] = some [7] := rfl
  have hfileB : fs.files [0x62] = some [8] := rfl
  obtain ⟨s, hr, hq, hsent⟩ := reach_two_files hfileA (by decide) (by decide) hfileB (by decide)
    (by decide)
  have hsecond : 2 ∈ s.sent := by simp [hsent]
  exact ⟨s, hr, hq, hsent, (onlyFirst_of_reach hr).not_allTransmitted hsecond (by decide)⟩

end ClientSession

end ServerCore
