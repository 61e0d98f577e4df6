/-
  File:      ServerCore/TransferSession.lean
  Subject:   A session with its file transfers, those it receives and those it sends: the machine
             over its one FileTransferManager.

  Packets arrive, transfers are started, continued and cancelled in any order; the connection
  comes and goes, and other programs write to the disk. What a run has done before is its
  history: which transfers it started and in which direction (`started`, `isReception`).

  * `manager_next`: each step is a call of the manager, or none.
  * `found_after`: where a context after a step comes from.
-/
import ServerCore.FileWrite

namespace ServerCore

open Seg Trans

/-! ## 1. The machine -/

/-- A session: what FilePacketSession has, and whether it is connected. -/
structure TransferSession where
  session : FilePacketSession
  connected : Bool

/-- What happens on a session. -/
inductive TransferStep where
  /-- a packet is received -/
  | packet (p : List UInt8) (env : Surroundings)
  | startFileSend (filePath : Path) (chunkSize : Nat) (mem : Memory) (openFails : Bool)
  | sendNextChunk (connectionId : Nat) (mem : Memory) (faults : SendFaults)
  | cancelTransfer (connectionId : Nat)
  /-- the session is connected from now on, or not -/
  | connection (connected : Bool)
  /-- other programs leave the files as `fs` -/
  | disk (fs : FileSystem)

namespace TransferSession

/-- The files. -/
abbrev fs (s : TransferSession) : FileSystem := s.session.fs

/-- The manager. -/
abbrev manager (s : TransferSession) : FileTransferManager := s.session.fileTransferManager

/-- The transfers of the session. -/
def find? (s : TransferSession) (id : Nat) : Option FileTransferContext :=
  s.manager.transfers.find? id

/-- The transfer that the next chunk goes to. -/
def latest? (s : TransferSession) : Option (Nat × FileTransferContext) :=
  s.manager.transfers.rbegin?

/-- The session with the manager `m`. -/
def withManager (s : TransferSession) (m : FileTransferManager) : TransferSession :=
  { s with session := { s.session with fileTransferManager := m } }

/-- `StartFileReceive` of the request `p`. -/
def request (s : TransferSession) (p : List UInt8) (env : Surroundings) :
    Bool × FileSystem × FileTransferManager :=
  startFileReceive s.fs s.manager s.session.fileReceiveDirectory p env.request

/-- `ProcessFileChunk` of the chunk `p`. -/
def process (s : TransferSession) (p : List UInt8) (env : Surroundings) :
    Bool × FileSystem × FileTransferManager × List TransferEvent :=
  processFileChunk s.fs s.manager (.read p) env.time env.chunk

/-- The packet `p` is received. -/
def receive (s : TransferSession) (p : List UInt8) (env : Surroundings) : TransferSession :=
  { s with session := s.session.onRecvPacket p env }

/-- One step; `none`: the process ended in it. -/
def next (s : TransferSession) : TransferStep → Option TransferSession
  | .packet p env => some (s.receive p env)
  | .startFileSend filePath chunkSize mem openFails =>
      (s.manager.startFileSend s.fs filePath chunkSize mem openFails).map fun r =>
        s.withManager r.2.1
  | .sendNextChunk connectionId mem faults =>
      some (s.withManager (s.manager.sendNextChunk s.fs connectionId mem faults).2.1)
  | .cancelTransfer connectionId => some (s.withManager (s.manager.cancelTransfer connectionId))
  | .connection connected => some { s with connected }
  | .disk fs => some { s with session := { s.session with fs } }

/-- What the step does besides. -/
def events (s : TransferSession) : TransferStep → List TransferEvent
  | .packet p env => if packetId p = fileDataChunk then (s.process p env).2.2.2 else []
  | .startFileSend filePath chunkSize mem openFails =>
      ((s.manager.startFileSend s.fs filePath chunkSize mem openFails).map fun r => r.2.2).getD []
  | .sendNextChunk connectionId mem faults =>
      (s.manager.sendNextChunk s.fs connectionId mem faults).2.2
  | .cancelTransfer _ | .connection _ | .disk _ => []

/-- The id of the transfer that the step starts, if it does. -/
def started (s : TransferSession) : TransferStep → Option Nat
  | .packet p env =>
      if packetId p = fileTransferRequest ∧ (s.request p env).1 = true then
        some s.manager.nextConnectionId
      else none
  | .startFileSend filePath chunkSize mem openFails =>
      if (s.manager.startFileSend s.fs filePath chunkSize mem openFails).any fun r => r.1 then
        some s.manager.nextConnectionId
      else none
  | .sendNextChunk .. | .cancelTransfer _ | .connection _ | .disk _ => none

/-- A run, with its history. -/
abbrev Run : Type := Traced TransferSession TransferStep

/-- A session with no transfer. -/
def start (fs : FileSystem) (dir : Path) (connected : Bool) : Run :=
  ⟨⟨⟨fs, .new, dir⟩, connected⟩, []⟩

/-- The transfer `id`, as it was started last, is one that is received. -/
def isReception : List (TransferSession × TransferStep) → Nat → Bool
  | [], _ => false
  | (s, l) :: h, id =>
      if s.started l = some id then
        match l with
        | .packet .. => true
        | _ => false
      else isReception h id

/-- The steps since the transfer `id` was started. -/
def since : List (TransferSession × TransferStep) → Nat → List (TransferSession × TransferStep)
  | [], _ => []
  | (s, l) :: h, id => if s.started l = some id then [] else (s, l) :: since h id

section History

variable {s : TransferSession} {l : TransferStep} {id : Nat}

theorem isReception_of_request {p : List UInt8} {env : Surroundings}
    (h : s.started (.packet p env) = some id) (hist : List (TransferSession × TransferStep)) :
    isReception ((s, .packet p env) :: hist) id = true :=
  if_pos h

/-- A step that starts the transfer and makes it a reception is a packet. -/
theorem exists_packet_of_isReception {hist : List (TransferSession × TransferStep)}
    (h : isReception ((s, l) :: hist) id = true) (hstart : s.started l = some id) :
    ∃ p env, l = .packet p env := by
  unfold isReception at h
  rw [if_pos hstart] at h
  cases l with
  | packet p env => exact ⟨p, env, rfl⟩
  | _ => exact absurd h Bool.false_ne_true

theorem isReception_of_ne (h : s.started l ≠ some id)
    (hist : List (TransferSession × TransferStep)) :
    isReception ((s, l) :: hist) id = isReception hist id :=
  if_neg h

theorem since_of_started (h : s.started l = some id)
    (hist : List (TransferSession × TransferStep)) : since ((s, l) :: hist) id = [] :=
  if_pos h

theorem since_of_ne (h : s.started l ≠ some id) (hist : List (TransferSession × TransferStep)) :
    since ((s, l) :: hist) id = (s, l) :: since hist id :=
  if_neg h

end History

/-! ## 2. Calls of the manager -/

/-- The call of the manager in a step. -/
def call (s : TransferSession) : TransferStep → Option FileTransferManager.ManagerCall
  | .packet p env =>
      if packetId p = fileTransferRequest then
        some (.startFileReceive s.fs s.session.fileReceiveDirectory p env.request)
      else if packetId p = fileDataChunk then
        some (.processFileChunk s.fs (.read p) env.time env.chunk)
      else none
  | .startFileSend filePath chunkSize mem openFails =>
      some (.startFileSend s.fs filePath chunkSize mem openFails)
  | .sendNextChunk connectionId mem faults => some (.sendNextChunk s.fs connectionId mem faults)
  | .cancelTransfer connectionId => some (.cancelTransfer connectionId)
  | .connection _ | .disk _ => none

/-- The id counter does not wrap. -/
def NoWrap (s : TransferSession) (l : TransferStep) : Prop :=
  ∀ c, s.call l = some c → s.manager.NoWrap c

theorem receive_request (s : TransferSession) {p : List UInt8} (env : Surroundings)
    (hp : packetId p = fileTransferRequest) : s.receive p env =
      { s with session := { s.session with
          fs := (s.request p env).2.1, fileTransferManager := (s.request p env).2.2 } } := by
  unfold receive
  rw [s.session.onRecvPacket_request env hp]
  rfl

theorem receive_chunk (s : TransferSession) {p : List UInt8} (env : Surroundings)
    (hp : packetId p = fileDataChunk) : s.receive p env =
      { s with session := { s.session with
          fs := (s.process p env).2.1, fileTransferManager := (s.process p env).2.2.1 } } := by
  unfold receive
  rw [s.session.onRecvPacket_chunk env hp]
  rfl

/-- Any other packet changes nothing. -/
theorem receive_other (s : TransferSession) {p : List UInt8} (env : Surroundings)
    (hr : packetId p ≠ fileTransferRequest) (hc : packetId p ≠ fileDataChunk) :
    s.receive p env = s := by
  unfold receive FilePacketSession.onRecvPacket
  rw [if_neg hr, if_neg hc]

/-- No step changes the receive directory. -/
theorem fileReceiveDirectory_next {s s' : TransferSession} {l : TransferStep}
    (h : s.next l = some s') :
    s'.session.fileReceiveDirectory = s.session.fileReceiveDirectory := by
  cases l with
  | packet p env =>
      obtain rfl := Option.some.inj h
      show (s.session.onRecvPacket p env).fileReceiveDirectory = _
      unfold FilePacketSession.onRecvPacket
      split
      · rfl
      · split <;> rfl
  | startFileSend filePath chunkSize mem openFails =>
      obtain ⟨r, -, rfl⟩ := Option.map_eq_some_iff.mp h
      rfl
  | sendNextChunk | cancelTransfer | connection | disk => exact Option.some.inj h ▸ rfl

/-- **A step is a call of the manager**, or leaves it alone. -/
theorem manager_next {s s' : TransferSession} {l : TransferStep} (h : s.next l = some s') :
    match s.call l with
    | some c => s.manager.next c = some s'.manager
    | none => s'.manager = s.manager := by
  cases l with
  | packet p env =>
      obtain rfl := Option.some.inj h
      unfold call
      dsimp only
      split_ifs with hr hc
      · rw [s.receive_request env hr]
        rfl
      · rw [s.receive_chunk env hc]
        rfl
      · rw [s.receive_other env hr hc]
  | startFileSend filePath chunkSize mem openFails =>
      obtain ⟨r, hr, rfl⟩ := Option.map_eq_some_iff.mp h
      show FileTransferManager.next s.manager (.startFileSend ..) = _
      simp only [FileTransferManager.next, hr, Option.map_some]
      rfl
  | sendNextChunk connectionId mem faults =>
      obtain rfl := Option.some.inj h
      rfl
  | cancelTransfer connectionId =>
      obtain rfl := Option.some.inj h
      rfl
  | connection connected =>
      obtain rfl := Option.some.inj h
      rfl
  | disk fs =>
      obtain rfl := Option.some.inj h
      rfl

/-- **The runs of a session are runs of its manager.** -/
theorem reach_manager {s s' : TransferSession} (hr : Reach next NoWrap s s') :
    Reach FileTransferManager.next FileTransferManager.NoWrap s.manager s'.manager := by
  have hsim : ∃ m, Reach FileTransferManager.next FileTransferManager.NoWrap s.manager m ∧
      s'.manager = m := by
    refine hr.simulate (R := fun s m => s.manager = m) rfl fun s s' l m hm hok hs => ?_
    subst hm
    have hnext := manager_next hs
    cases hcall : s.call l with
    | none =>
        rw [hcall] at hnext
        exact ⟨s.manager, .start, hnext⟩
    | some c =>
        rw [hcall] at hnext
        exact ⟨s'.manager, .step _ _ c .start (hok c hcall) hnext, rfl⟩
  obtain ⟨m, hm, rfl⟩ := hsim
  exact hm

theorem idsBelow_of_reach {fs : FileSystem} {dir : Path} {connected : Bool} {t : Run}
    (hr : Reach (traced next) (fun t l => t.state.NoWrap l) (start fs dir connected) t) :
    t.state.manager.IdsBelow :=
  FileTransferManager.idsBelow_of_reach (reach_manager (hr.untraced fun _ _ h => h))

/-! ## 3. The transfers after a step -/

/-- **Where a context after a step comes from**: the transfer was started, it is as it was, or a
    chunk or a call of SendNextChunk went to it. -/
inductive FoundAfter (s : TransferSession) (l : TransferStep) (id : Nat) :
    FileTransferContext → Prop where
  | requested (p : List UInt8) (env : Surroundings) (hl : l = .packet p env)
      (hstart : s.started l = some id) :
      FoundAfter s l id (.receiving (receivePath s.session.fileReceiveDirectory p) p)
  | sending (filePath : Path) (chunkSize : Nat) (mem : Memory) (openFails : Bool)
      (context : FileTransferContext) (hl : l = .startFileSend filePath chunkSize mem openFails)
      (hstart : s.started l = some id) : FoundAfter s l id context
  | kept (context : FileTransferContext) (hfind : s.find? id = some context)
      (hnot : s.started l ≠ some id) : FoundAfter s l id context
  | opened (p : List UInt8) (env : Surroundings) (context : FileTransferContext)
      (hl : l = .packet p env) (hlast : s.latest? = some (id, context))
      (hnot : s.started l ≠ some id) :
      FoundAfter s l id { context with filePath := chunkPath s.fs context env.time env.chunk }
  | accepted (p : List UInt8) (env : Surroundings) (context : FileTransferContext)
      (hl : l = .packet p env) (hlast : s.latest? = some (id, context))
      (hnot : s.started l ≠ some id) :
      FoundAfter s l id (context.accept (chunkPath s.fs context env.time env.chunk) (.read p))
  | continued (context context' : FileTransferContext) (hfind : s.find? id = some context)
      (hpath : context'.filePath = context.filePath)
      (hsize : context'.fileSize = context.fileSize)
      (hchunk : context'.chunkSize = context.chunkSize)
      (hnot : s.started l ≠ some id) : FoundAfter s l id context'

/-- The chunk of an accepting step: the transfer of the largest id is a chunk further on. -/
theorem process_of_accepts {s : TransferSession} {p : List UInt8} (env : Surroundings) {key : Nat}
    {context : FileTransferContext} (hlast : s.latest? = some (key, context))
    (haccepts : Accepts s.fs context (.read p) env.chunk) :
    (s.process p env).2.2.1 = s.manager.setContext key
        (context.accept (chunkPath s.fs context env.time env.chunk) (.read p)) ∧
      (s.process p env).2.2.2 = (if context.closedBy (.read p) then
        [.complete key true (chunkPath s.fs context env.time env.chunk)] else []) := by
  have hout := processFileChunk_outcome s.fs s.manager (.read p) env.time env.chunk
  unfold process
  generalize processFileChunk s.fs s.manager (.read p) env.time env.chunk = r at hout ⊢
  obtain ⟨result, fs', m', events⟩ := r
  cases hout with
  | refused hnot => exact absurd haccepts.canWrite.canOpen (hnot key context hlast)
  | failed key' context' hlast' hnot =>
      obtain ⟨rfl, rfl⟩ := Prod.mk.inj (Option.some.inj (hlast.symm.trans hlast'))
      exact absurd haccepts hnot
  | accepted key' context' hlast' =>
      obtain ⟨rfl, rfl⟩ := Prod.mk.inj (Option.some.inj (hlast.symm.trans hlast'))
      exact ⟨rfl, rfl⟩

/-- The context of an accepted chunk has counted it. -/
theorem find?_of_accepts {s : TransferSession} {p : List UInt8} (env : Surroundings) {key : Nat}
    {context : FileTransferContext} (hp : packetId p = fileDataChunk)
    (hlast : s.latest? = some (key, context))
    (haccepts : Accepts s.fs context (.read p) env.chunk) : (s.receive p env).find? key =
      some (context.accept (chunkPath s.fs context env.time env.chunk) (.read p)) := by
  obtain ⟨hm, -⟩ := process_of_accepts env hlast haccepts
  unfold find?
  rw [s.receive_chunk env hp]
  dsimp only [manager]
  rw [hm]
  exact FileTransferManager.find?_setContext_self ..

/-- A chunk for which no file can be opened does nothing. -/
theorem process_of_not_canOpen {s : TransferSession} (p : List UInt8) {env : Surroundings}
    (h : ∀ key latest, s.latest? = some (key, latest) → ¬ CanOpen s.fs latest env.chunk) :
    ∃ fs', s.process p env = (false, fs', s.manager, []) ∧ fs'.files = s.fs.files := by
  have hnone : openedFile s.fs s.manager env.time env.chunk = none := by
    rw [Option.eq_none_iff_forall_not_mem]
    intro r hr
    obtain ⟨key, latest, hlast, hcan⟩ := exists_openedFile_iff.mp ⟨r, hr⟩
    exact h key latest hlast hcan
  exact processFileChunk_of_not_opened hnone (.read p)

/-- A chunk that causes a callback is accepted, and closes its transfer. -/
theorem closes_of_complete {s : TransferSession} {p : List UInt8} {env : Surroundings} {id : Nat}
    {success : Bool} {path : Path} (h : .complete id success path ∈ (s.process p env).2.2.2) :
    ∃ context, s.latest? = some (id, context) ∧ Accepts s.fs context (.read p) env.chunk ∧
      context.closedBy (.read p) = true ∧ success = true ∧
      path = chunkPath s.fs context env.time env.chunk := by
  have hout := processFileChunk_outcome s.fs s.manager (.read p) env.time env.chunk
  unfold process at h
  generalize processFileChunk s.fs s.manager (.read p) env.time env.chunk = r at hout h
  obtain ⟨result, fs', m', events⟩ := r
  cases hout with
  | refused => exact absurd h List.not_mem_nil
  | failed => exact absurd h List.not_mem_nil
  | accepted key context hlast haccepts =>
      dsimp only at h
      split at h
      · rename_i hclosed
        obtain ⟨rfl, rfl, rfl⟩ : id = key ∧ success = true ∧ path = _ := by simpa using h
        exact ⟨context, hlast, haccepts, hclosed, rfl, rfl⟩
      · exact absurd h List.not_mem_nil

theorem find?_of_latest? {s : TransferSession} {id : Nat} {context : FileTransferContext}
    (h : s.latest? = some (id, context)) : s.find? id = some context :=
  (OrdMap.rbegin?_eq_some_iff.mp h).1

theorem not_started_chunk (s : TransferSession) {p : List UInt8} (env : Surroundings)
    (hp : packetId p = fileDataChunk) : s.started (.packet p env) = none := by
  refine if_neg fun h => ?_
  rw [hp] at h
  exact absurd h.1 (by decide)

/-- **What a request does**: nothing to the transfers where it is refused, and else it starts one
    under the next id. -/
theorem request_cases (s : TransferSession) {p : List UInt8} (env : Surroundings)
    (hp : packetId p = fileTransferRequest) :
    (s.started (.packet p env) = none ∧ (s.receive p env).manager = s.manager) ∨
      (s.started (.packet p env) = some s.manager.nextConnectionId ∧
        (s.receive p env).manager = s.manager.bump.setContext s.manager.nextConnectionId
          (.receiving (receivePath s.session.fileReceiveDirectory p) p)) := by
  rw [s.receive_request env hp]
  obtain ⟨hfalse, hm⟩ | ⟨htrue, hm⟩ := startFileReceive_cases s.fs s.manager
    s.session.fileReceiveDirectory p env.request
  · exact .inl ⟨if_neg fun h => Bool.eq_false_iff.mp hfalse h.2, hm⟩
  · exact .inr ⟨if_pos ⟨hp, htrue⟩, hm⟩

/-- A packet that starts a transfer is a request. -/
theorem isRequest_of_started {s : TransferSession} {p : List UInt8} {env : Surroundings} {id : Nat}
    (h : s.started (.packet p env) = some id) :
    packetId p = fileTransferRequest ∧ (s.request p env).1 = true ∧
      id = s.manager.nextConnectionId := by
  unfold started at h
  dsimp only at h
  split at h
  · rename_i hr
    exact ⟨hr.1, hr.2, (Option.some.inj h).symm⟩
  · nomatch h

/-- **What `StartFileSend` does**: nothing where it fails, and else it starts a transfer of the file
    under the next id. -/
theorem send_cases {s : TransferSession} {filePath : Path} {chunkSize : Nat} {mem : Memory}
    {openFails : Bool} {r : Bool × FileTransferManager × List TransferEvent}
    (h : s.manager.startFileSend s.fs filePath chunkSize mem openFails = some r) :
    (s.started (.startFileSend filePath chunkSize mem openFails) = none ∧ r.2.1 = s.manager) ∨
      (s.started (.startFileSend filePath chunkSize mem openFails) =
          some s.manager.nextConnectionId ∧
        ∃ content, s.fs.files filePath = some content ∧
          r.2.1 = s.manager.bump.setContext s.manager.nextConnectionId
            ⟨filePath, true, u64 content.length, 0, chunkSize,
              chunksTotal (u64 content.length) chunkSize, 0, false⟩) := by
  obtain ⟨result, m, events⟩ := r
  have hstarted : s.started (.startFileSend filePath chunkSize mem openFails) =
      if result = true then some s.manager.nextConnectionId else none := by
    unfold started
    dsimp only
    rw [h, Option.any_some]
  rw [hstarted]
  obtain ⟨rfl, rfl, -⟩ | ⟨content, packet, hfile, -, rfl, -, -, rfl⟩ :=
    FileTransferManager.startFileSend_cases h
  · exact .inl ⟨rfl, rfl⟩
  · exact .inr ⟨rfl, content, hfile, rfl⟩

/-- **What a step does to the map of transfers**: an update of a context that is there, a new one
    under the next id, or an erasure. -/
inductive StepEffect (s : TransferSession) (l : TransferStep) : FileTransferManager → Prop where
  | update (m' : FileTransferManager) (h : s.manager.Update m') (hnone : s.started l = none)
      (hcancel : ∀ id, l ≠ .cancelTransfer id) : StepEffect s l m'
  | start (context : FileTransferContext) (h : s.started l = some s.manager.nextConnectionId) :
      StepEffect s l (s.manager.bump.setContext s.manager.nextConnectionId context)
  | cancel (id : Nat) (hl : l = .cancelTransfer id) : StepEffect s l (s.manager.cancelTransfer id)

theorem effect_next {s s' : TransferSession} {l : TransferStep} (hs : s.next l = some s') :
    s.StepEffect l s'.manager := by
  cases l with
  | packet p env =>
      obtain rfl := Option.some.inj hs
      by_cases hr : packetId p = fileTransferRequest
      · obtain ⟨hnone, hm⟩ | ⟨hstart, hm⟩ := s.request_cases env hr
        · exact hm ▸ .update _ .keep hnone nofun
        · exact hm ▸ .start _ hstart
      · by_cases hc : packetId p = fileDataChunk
        · rw [s.receive_chunk env hc]
          exact .update _ (s.manager.update_processFileChunk s.fs (.read p) env.time env.chunk)
            (s.not_started_chunk env hc) nofun
        · rw [s.receive_other env hr hc]
          exact .update _ .keep (if_neg fun h => hr h.1) nofun
  | startFileSend filePath chunkSize mem openFails =>
      obtain ⟨r, hr, rfl⟩ := Option.map_eq_some_iff.mp hs
      show s.StepEffect _ r.2.1
      obtain ⟨hnone, hm⟩ | ⟨hstart, content, -, hm⟩ := send_cases hr
      · exact hm ▸ .update _ .keep hnone nofun
      · exact hm ▸ .start _ hstart
  | sendNextChunk connectionId mem faults =>
      obtain rfl := Option.some.inj hs
      exact .update _ (FileTransferManager.update_sendNextChunk s.fs s.manager connectionId mem
        faults) rfl nofun
  | cancelTransfer connectionId =>
      obtain rfl := Option.some.inj hs
      exact .cancel connectionId rfl
  | connection connected =>
      obtain rfl := Option.some.inj hs
      exact .update _ .keep rfl nofun
  | disk fs =>
      obtain rfl := Option.some.inj hs
      exact .update _ .keep rfl nofun

/-- A chunk leaves the transfers alone that it does not go to. -/
theorem find?_receive_chunk {s : TransferSession} {p : List UInt8} (env : Surroundings)
    (hp : packetId p = fileDataChunk) {id : Nat}
    (hid : ∀ key latest, s.latest? = some (key, latest) → id ≠ key) :
    (s.receive p env).find? id = s.find? id := by
  unfold find?
  rw [s.receive_chunk env hp]
  have hout := processFileChunk_outcome s.fs s.manager (.read p) env.time env.chunk
  show (processFileChunk _ _ _ _ _).2.2.1.transfers.find? id = _
  generalize processFileChunk s.fs s.manager (.read p) env.time env.chunk = r at hout ⊢
  obtain ⟨result, fs', m', ev⟩ := r
  cases hout with
  | refused => rfl
  | failed key context hlast =>
      exact FileTransferManager.find?_setContext_of_ne _ _ (hid key context hlast)
  | accepted key context hlast =>
      exact FileTransferManager.find?_setContext_of_ne _ _ (hid key context hlast)

theorem found_after {s s' : TransferSession} {l : TransferStep} {id : Nat}
    {context' : FileTransferContext} (hs : s.next l = some s')
    (h : s'.find? id = some context') : s.FoundAfter l id context' := by
  have hcreate : ∀ {context : FileTransferContext},
      (s.manager.bump.setContext s.manager.nextConnectionId context).transfers.find? id =
        some context' → s.started l = some s.manager.nextConnectionId →
      (s.started l = some id ∧ context' = context) ∨ s.FoundAfter l id context' := by
    intro context hfind hstart
    by_cases hid : id = s.manager.nextConnectionId
    · rw [hid, FileTransferManager.find?_setContext_self] at hfind
      exact .inl ⟨hid ▸ hstart, (Option.some.inj hfind).symm⟩
    · rw [FileTransferManager.find?_setContext_of_ne _ _ hid] at hfind
      refine .inr (.kept context' hfind fun e => hid ?_)
      exact (Option.some.inj (hstart.symm.trans e)).symm
  cases l with
  | packet p env =>
      obtain rfl := Option.some.inj hs
      by_cases hr : packetId p = fileTransferRequest
      · unfold find? at h
        obtain ⟨hnone, hm⟩ | ⟨hstart, hm⟩ := s.request_cases env hr
        · rw [hm] at h
          exact .kept context' h (by rw [hnone]; nofun)
        · rw [hm] at h
          rcases hcreate h hstart with ⟨hstart, rfl⟩ | hfound
          · exact .requested p env rfl hstart
          · exact hfound
      · by_cases hc : packetId p = fileDataChunk
        · have hnot : s.started (.packet p env) ≠ some id := by
            rw [s.not_started_chunk env hc]
            nofun
          rw [s.receive_chunk env hc] at h
          have hout := processFileChunk_outcome s.fs s.manager (.read p) env.time env.chunk
          change (processFileChunk _ _ _ _ _).2.2.1.transfers.find? id = _ at h
          generalize processFileChunk s.fs s.manager (.read p) env.time env.chunk = r at h hout
          obtain ⟨result, fs', m', ev⟩ := r
          cases hout with
          | refused => exact .kept context' h hnot
          | failed key context hlast =>
              rcases FileTransferManager.find?_setContext_cases h with ⟨rfl, rfl⟩ | hbefore
              · exact .opened p env context rfl hlast hnot
              · exact .kept context' hbefore hnot
          | accepted key context hlast =>
              rcases FileTransferManager.find?_setContext_cases h with ⟨rfl, rfl⟩ | hbefore
              · exact .accepted p env context rfl hlast hnot
              · exact .kept context' hbefore hnot
        · rw [s.receive_other env hr hc] at h
          refine .kept context' h fun e => hr (isRequest_of_started e).1
  | startFileSend filePath chunkSize mem openFails =>
      obtain ⟨r, hr, rfl⟩ := Option.map_eq_some_iff.mp hs
      change r.2.1.transfers.find? id = _ at h
      obtain ⟨hnone, hm⟩ | ⟨hstart, content, -, hm⟩ := send_cases hr
      · rw [hm] at h
        exact .kept context' h (by rw [hnone]; nofun)
      · rw [hm] at h
        rcases hcreate h hstart with ⟨hstart, -⟩ | hfound
        · exact .sending filePath chunkSize mem openFails context' rfl hstart
        · exact hfound
  | sendNextChunk connectionId mem faults =>
      obtain rfl := Option.some.inj hs
      change (s.manager.sendNextChunk s.fs connectionId mem faults).2.1.transfers.find? id = _ at h
      have hset : ∀ {key : Nat} {context after : FileTransferContext},
          s.manager.findTransfer connectionId = some (key, context) →
          (s.manager.setContext key after).transfers.find? id = some context' →
          after.filePath = context.filePath → after.fileSize = context.fileSize →
          after.chunkSize = context.chunkSize →
            s.FoundAfter (.sendNextChunk connectionId mem faults) id context' := by
        intro key context after hkey hafter hpath hsize hchunk
        rcases FileTransferManager.find?_setContext_cases hafter with ⟨rfl, rfl⟩ | hbefore
        · exact .continued context context' (FileTransferManager.find?_of_findTransfer hkey)
            hpath hsize hchunk nofun
        · exact .kept context' hbefore nofun
      have hout := s.manager.sendNextChunk_outcome s.fs connectionId mem faults
      generalize s.manager.sendNextChunk s.fs connectionId mem faults = r at h hout
      cases hout with
      | nothing => exact .kept context' h nofun
      | failed key context hkey => exact hset hkey h rfl rfl rfl
      | finished key context hkey => exact hset hkey h rfl rfl rfl
      | last key context packet hkey => exact hset hkey h rfl rfl rfl
      | more key context packet hkey => exact hset hkey h rfl rfl rfl
  | cancelTransfer connectionId =>
      obtain rfl := Option.some.inj hs
      change (s.manager.cancelTransfer connectionId).transfers.find? id = _ at h
      rw [FileTransferManager.find?_cancelTransfer] at h
      split at h
      · nomatch h
      · exact .kept context' h nofun
  | connection connected =>
      obtain rfl := Option.some.inj hs
      exact .kept context' h nofun
  | disk fs =>
      obtain rfl := Option.some.inj hs
      exact .kept context' h nofun

/-! ## 4. Where nothing fails -/

/-- A packet is received: the run goes on. -/
theorem traced_packet (t : Run) {p : List UInt8} {env : Surroundings} {s : TransferSession}
    (h : t.state.receive p env = s) :
    traced next t (.packet p env) = some ⟨s, (t.state, .packet p env) :: t.history⟩ :=
  traced_eq_some_iff.mpr ⟨congrArg some h, rfl⟩

/-- Where nothing fails, a request is accepted. -/
theorem receive_request_calm (s : TransferSession) {p : List UInt8}
    (hp : packetId p = fileTransferRequest) (h0 : 1 ≤ FileHeader.fileSize p)
    (h : FileHeader.fileSize p < 2 ^ 63) :
    s.started (.packet p .calm) = some s.manager.nextConnectionId ∧
      ∃ fs, s.receive p .calm = ⟨⟨fs, s.manager.bump.setContext s.manager.nextConnectionId
          (.receiving (receivePath s.session.fileReceiveDirectory p) p),
          s.session.fileReceiveDirectory⟩, s.connected⟩ ∧
        fs.files (receivePath s.session.fileReceiveDirectory p) =
          some (List.replicate (FileHeader.fileSize p) 0) := by
  obtain ⟨fs, hstart, hfile⟩ := startFileReceive_none s.fs s.manager
    s.session.fileReceiveDirectory p h0 h
  have hrequest : s.request p .calm = _ := hstart
  refine ⟨if_pos ⟨hp, by rw [hrequest]⟩, fs, ?_, hfile⟩
  rw [s.receive_request .calm hp, hrequest]

/-- **Where nothing fails, a chunk is accepted** that fits into the file, and goes there. -/
theorem receive_chunk_calm (s : TransferSession) {p : List UInt8}
    (hp : packetId p = fileDataChunk) {key : Nat} {context : FileTransferContext}
    {content : List UInt8} (hlast : s.latest? = some (key, context))
    (hparent : Path.parentPath context.filePath ≠ [])
    (hfile : s.fs.files context.filePath = some content) (hlen : content.length = context.fileSize)
    (hdata : (FileChunk.read p).data.length = (FileChunk.read p).chunkSize)
    (hfit : (FileChunk.read p).chunkId * context.chunkSize + (FileChunk.read p).chunkSize ≤
      context.fileSize) (hsize : context.fileSize < 2 ^ 63) :
    Accepts s.fs context (.read p) .none ∧
      chunkPath s.fs context 0 .none = context.filePath ∧
      (s.receive p .calm).manager =
        s.manager.setContext key (context.accept context.filePath (.read p)) ∧
      s.events (.packet p .calm) = (if context.closedBy (.read p) then
        [.complete key true context.filePath] else []) ∧
      (s.receive p .calm).fs.files context.filePath = some (patch 0 content
        ((FileChunk.read p).chunkId * context.chunkSize) (FileChunk.read p).data) := by
  obtain ⟨haccepts, hpath, fs', hprocess, hfile'⟩ := processFileChunk_calm 0 hlast hparent hfile
    hlen hdata hfit hsize
  have hresult : s.process p .calm = _ := hprocess
  refine ⟨haccepts, hpath, ?_, ?_, ?_⟩
  · rw [s.receive_chunk .calm hp, hresult]
  · exact (if_pos hp).trans (by rw [hresult])
  · rw [s.receive_chunk .calm hp, hresult]
    exact hfile'

/-- A session that was given the request of a file of `n` bytes. -/
theorem exists_reception {n : Nat} (h0 : 1 ≤ n) (hn : n < 2 ^ 63) :
    ∃ t request context, packetId request = fileTransferRequest ∧
      (start .empty [0x2E] true).state.started (.packet request .calm) = some 1 ∧
      traced next (start .empty [0x2E] true) (.packet request .calm) = some t ∧
      t.history = [((start .empty [0x2E] true).state, .packet request .calm)] ∧
      t.state.manager = FileTransferManager.new.bump.setContext 1 context ∧
      context.filePath = [0x2E, 0x2F, 0x61] ∧ context.fileSize = n ∧
      context.chunkSize = defaultChunkSize ∧ context.isCompleted = false ∧
      t.state.fs.files [0x2E, 0x2F, 0x61] = some (List.replicate n 0) := by
  obtain ⟨request, hid, hname, hsize⟩ := exists_fileRequest hn
  have hpath : receivePath [0x2E] request = [0x2E, 0x2F, 0x61] := by
    unfold receivePath
    rw [hname]
    rfl
  obtain ⟨hstart, fs, hreceive, hfile⟩ := receive_request_calm (start .empty [0x2E] true).state hid
    (by omega) (by omega)
  rw [show (start .empty [0x2E] true).state.session.fileReceiveDirectory = [0x2E] from rfl,
    hpath] at hreceive hfile
  rw [hsize] at hfile
  exact ⟨_, request, .receiving [0x2E, 0x2F, 0x61] request, hid, hstart,
    traced_packet _ hreceive, rfl, rfl, rfl, hsize, rfl, rfl, hfile⟩

/-- The first chunk of the file, one byte that is marked as the last. -/
theorem exists_lastChunk : ∃ p, packetId p = fileDataChunk ∧
    FileChunk.read p = ⟨sizeofFileChunk + 1, fileDataChunk, 0, 1, true, [7]⟩ := by
  obtain ⟨p, -, -, hread⟩ := @read_createFileChunkPacket (fun _ => 0) [7] 0 true (by decide)
  exact ⟨p, congrArg FileChunk.id hread, hread⟩

end TransferSession

end ServerCore
