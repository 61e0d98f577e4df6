/-
  File:      ServerCore/FileWire.lean
  Subject:   A file transfer over the byte streams, from SendFile of a ClientSession to the file and
             the report of a GameSession, with the chat and the stress test of the session going on
             over the same streams.

  `FileWire` is `StressWire` with the transfers of the client: SendFile, its first chunk and the
  detached threads put their packets on the way like everything else the client sends. The client
  sends one file; the file system of the server does not fail, and others may write to it elsewhere.

  * `Served`: the server has taken up the first packets of the stream of the file, and has reported
    it if these are all.
  * `FileInv.step`: the packets taken up and those on the way are what the sender has sent.
  * `file_wire_transfers`: so a report is true, and once the client is at rest and nothing is on the
    way the server has the file and has reported it once.
-/
import ServerCore.FileStream
import ServerCore.StressWire

namespace ServerCore

open Seg Trans

/-! ## 1. The machine -/

/-- The two sessions with their streams, and the transfers of the client that are under way. -/
structure FileWire where
  wire : StressWire
  sendFiles : List Nat
  scheduled : List Nat
  sent : List Nat

/-- What happens next: a step of `StressWire`; a step of the transfers of the client; other files
    of the server's file system change. -/
inductive FileStep where
  | wire (l : WireStep)
  | file (l : SessionStep) (mem : Memory)
  | elsewhere (fs : FileSystem)

namespace FileWire

/-- The transfers of the client. -/
def sending (s : FileWire) : ClientSession :=
  ⟨s.wire.client.files.fileTransferManager, s.sendFiles, s.scheduled, s.sent⟩

/-- The client with its transfers at `c`. -/
def clientAt (s : FileWire) (c : ClientSession) : ClientEnd :=
  { s.wire.client with
    files := { s.wire.client.files with fileTransferManager := c.manager } }

/-- **The step function.** `none`: not possible, or a process ended. -/
def next (s : FileWire) : FileStep → Option FileWire
  | .wire l => (s.wire.next l).map fun wire => { s with wire }
  | .file l mem => (s.sending.next s.wire.client.files.fs l).bind fun c =>
      (sentOn (fun success filePath => ClientSession.transferComplete mem success filePath false)
        (s.sending.transferEvents s.wire.client.files.fs l)).map fun packets =>
          ⟨s.wire.fromClient (s.clientAt c) packets, c.sendFiles, c.scheduled, c.sent⟩
  | .elsewhere fs => some { s with wire := { s.wire with server := { s.wire.server with
      files := { s.wire.server.files with fs } } } }

/-- Both sides just connected. -/
def start (client : ClientEnd) (server : GameSession) : FileWire :=
  ⟨.start client server, [], [], []⟩

/-- The path of the file at the server. -/
def receivedPath (filePath : Path) (s : FileWire) : Path :=
  s.wire.server.files.fileReceiveDirectory ++ 0x2F :: Path.filename filePath

/-- **The client sends one file**: only `filePath` is given to SendFile, a transfer is only created
    where none was, and no detached thread fails; what else it sends is none of a transfer. At the
    server nothing fails in the file system, and no one else writes to the file. -/
def SendsFile (filePath : Path) (s : FileWire) : FileStep → Prop
  | .wire (.send packet) => FromClient False packet ∧ clientPacketOf packet = none
  | .wire (.toServer _ env) => ∀ i, (env i).files.request = .none ∧ (env i).files.chunk = .none
  | .wire _ => True
  | .file l _ => ClientSession.SingleFile s.wire.client.files.fs s.sending l ∧
      ClientSession.SendsOnly filePath l
  | .elsewhere fs => fs.files (s.receivedPath filePath) =
      s.wire.server.files.fs.files (s.receivedPath filePath)

end FileWire

/-- The packets of file transfers among `ps`. -/
def filePackets (ps : List (List UInt8)) : List (List UInt8) :=
  ps.filter fun p => isFileTransferPacket (packetId p)

/-- The text of the report. -/
def completeMsg (filePath : Path) : List UInt8 :=
  Path.ofString "Server received file: " ++ Path.filename filePath

/-- The chat packet reports the file. -/
def isReport (filePath : Path) (p : List UInt8) : Bool :=
  packetId p = pktSChat && cString (p.drop 4) = completeMsg filePath

/-! ## 2. A call of the server -/

section Call

variable {g g' : GameSession} {c : RecvCall} {env : CallEnv} {ps : List (List UInt8)}

/-- The answer to a chat message is no report. -/
theorem completeMsg_ne (filePath : Path) :
    cString (Path.ofString "Server received your message!") ≠ completeMsg filePath := by
  rw [completeMsg, ofString_serverReceived, cString_of_not_mem (by rw [ofString_answer]; decide),
    ofString_answer]
  simp

/-- A packet that the client takes for one of the stress test is no report. -/
theorem isReport_of_serverPacketOf (filePath : Path) {p : List UInt8} {q : ServerPacket}
    (h : serverPacketOf p = some q) : isReport filePath p = false := by
  unfold isReport
  rw [Bool.and_eq_false_iff]
  refine .inl (decide_eq_false fun hid => ?_)
  rw [serverPacketOf, hid] at h
  cases h

/-- What a call does to the file transfers. -/
theorem GameSession.files_onRecvPacket (g : GameSession) (buffer : List UInt8)
    (env : GameSurroundings) : (g.onRecvPacket buffer env).1.files =
      if isFileTransferPacket (packetId buffer) then g.files.onRecvPacket buffer env.files
      else g.files := by
  unfold onRecvPacket
  dsimp only
  by_cases hchat : packetId buffer = pktCChat
  · rw [if_pos hchat, hchat]
    rfl
  rw [if_neg hchat]
  by_cases hstart : packetId buffer = pktCStressStart
  · rw [if_pos hstart, hstart]
    rfl
  rw [if_neg hstart]
  by_cases hdata : packetId buffer = pktCStressData
  · rw [if_pos hdata, hdata]
    split
    · rfl
    · rfl
  rw [if_neg hdata]
  by_cases hend : packetId buffer = pktCStressEnd
  · rw [if_pos hend, hend]
    split
    · rfl
    · rfl
  rw [if_neg hend]
  split
  · rfl
  · rfl

/-- **A call with any other packet** leaves the file transfers alone, and reports nothing. -/
theorem GameSession.handle_other (filePath : Path) (hc : c.Framed)
    (hfits : PacketFits true c.packet) (hno : isFileTransferPacket (packetId c.packet) = false)
    (h : g.handle c.buffer env = some (g', ps)) :
    g'.files = g.files ∧ ∀ p ∈ ps, isReport filePath p = false := by
  have hid : packetId c.packet = packetId c.buffer :=
    packetId_packet (hc.length_packet ▸ hfits.header)
  obtain ⟨-, hreplies⟩ := g.onRecvPacket_receive c.buffer env
  have hanswers := answers_receive g.stressTest hc hfits
  have hfiles := g.files_onRecvPacket c.buffer (surroundings env)
  rw [hid] at hno
  unfold handle at h
  dsimp only at h
  obtain ⟨replies, hbytes, h⟩ := Option.bind_eq_some_iff.mp h
  obtain ⟨notices, hnotices, e⟩ := Option.map_eq_some_iff.mp h
  obtain ⟨rfl, rfl⟩ := Prod.mk.inj e
  rw [hno, if_neg Bool.false_ne_true] at hnotices hfiles
  obtain rfl : [] = notices := Option.some.inj hnotices
  rw [List.append_nil]
  refine ⟨hfiles, ?_⟩
  rw [hreplies] at hbytes
  split at hbytes
  · rw [List.mapM_cons, List.mapM_nil] at hbytes
    obtain ⟨p, hp, e⟩ := Option.bind_eq_some_iff.mp hbytes
    obtain rfl : [p] = replies := Option.some.inj e
    refine List.forall_mem_singleton.mpr (Bool.and_eq_false_iff.mpr (.inr ?_))
    rw [cString_chatPacket (by decide) hp]
    exact decide_eq_false (completeMsg_ne filePath)
  · rw [mapM_replyBytes] at hbytes
    obtain rfl := Option.some.inj hbytes
    exact List.forall_mem_map.mpr fun p hp =>
      isReport_of_serverPacketOf filePath (serverPacketOf_bytesOf env.mem env.floats hc
        (hanswers p hp))

/-- **A call with a packet of a file transfer**: what is sent are the reports. -/
theorem GameSession.handle_file (g : GameSession) {buffer : List UInt8} (env : CallEnv)
    (hfile : isFileTransferPacket (packetId buffer) = true) :
    g.handle buffer env =
      (sentOn (transferComplete env.mem) (g.files.events buffer env.files)).map fun ps =>
        ((g.onRecvPacket buffer (surroundings env)).1, ps) := by
  obtain ⟨-, hreplies⟩ := g.onRecvPacket_receive buffer env
  have hnone : clientPacketOf buffer = none := by
    cases hq : clientPacketOf buffer with
    | none => rfl
    | some q => nomatch hfile.symm.trans (noFile_of_clientPacketOf hq)
  have hchat : packetId buffer ≠ pktCChat := fun e => by
    rw [e] at hfile
    nomatch hfile
  rw [if_neg hchat, hnone] at hreplies
  unfold handle
  dsimp only
  rw [hreplies, hfile, if_pos rfl]
  rfl

end Call

/-! ## 3. The server -/

/-- **The server has taken up the packets `delivered`**, the first of the stream of the file, and
    has sent `sent`: a report for the file, if these are all. -/
structure Served (filePath dir : Path) (f : List UInt8) (delivered : List (List UInt8))
    (g : GameSession) (sent : List (List UInt8)) : Prop where
  taken : Taken filePath dir f delivered g.files
  reports : (sent.filter (isReport filePath)).length =
    if delivered.length = sliceCount f.length defaultChunkSize + 1 then 1 else 0

section Served

variable {filePath dir : Path} {f : List UInt8} {g : GameSession} {c : RecvCall} {env : CallEnv}
  {delivered sent : List (List UInt8)}

/-- The name at the path of the file is that of the file. -/
theorem filename_receivedPath (dir filePath : Path) :
    Path.filename (dir ++ 0x2F :: Path.filename filePath) = Path.filename filePath := by
  rw [Path.filename_append dir rfl]
  unfold Path.baseName Path.filename
  rw [List.reverse_reverse, List.takeWhile_takeWhile]
  simp

/-- **The reports on the events of a packet**: one with the last packet of the stream. -/
theorem reports_of_events (hno : 0 ∉ Path.filename filePath) (mem : Memory) {n : Prop} [Decidable n]
    {ps : List (List UInt8)} (h : sentOn (GameSession.transferComplete mem)
      (if n then [.complete 1 true (dir ++ 0x2F :: Path.filename filePath)] else []) = some ps) :
    (ps.filter (isReport filePath)).length = if n then 1 else 0 := by
  split at h
  · rename_i hn
    rw [if_pos hn]
    obtain ⟨qs, hqs, h⟩ := Option.bind_eq_some_iff.mp h
    obtain rfl : qs = ps := by
      exact (List.append_nil qs).symm.trans (Option.some.inj h)
    obtain ⟨p, hp, rfl⟩ := Option.map_eq_some_iff.mp hqs
    unfold GameSession.sendFileCompleteMessage at hp
    rw [filename_receivedPath] at hp
    have hreport : isReport filePath p = true := by
      obtain ⟨-, hid, -⟩ := chatPacket_spec (by decide) hp
      have htext := cString_chatPacket (by decide) hp
      have hzero : 0 ∉ Path.ofString "Server received file: " ++ Path.filename filePath := by
        rw [List.mem_append, ofString_serverReceived]
        exact fun h => h.elim (by decide) hno
      rw [cString_of_not_mem hzero] at htext
      exact Bool.and_eq_true_iff.mpr ⟨decide_eq_true hid, decide_eq_true htext⟩
    rw [List.filter_cons_of_pos hreport]
    rfl
  · rename_i hn
    rw [if_neg hn]
    cases h
    rfl

/-- It can be sent where the name leaves room for the text. -/
theorem exists_reports (hlen : (Path.filename filePath).length ≤ 77) (mem : Memory) (n : Prop)
    [Decidable n] : ∃ ps, sentOn (GameSession.transferComplete mem)
      (if n then [.complete 1 true (dir ++ 0x2F :: Path.filename filePath)] else []) = some ps := by
  split
  · have hroom := (GameSession.transferComplete_isSome_iff mem
      (dir ++ 0x2F :: Path.filename filePath)).mpr (by
        rw [filename_receivedPath]
        exact Nat.le_trans (length_cString_le _) hlen)
    obtain ⟨qs, hqs⟩ := Option.isSome_iff_exists.mp hroom
    refine ⟨qs, ?_⟩
    rw [sentOn, hqs]
    exact congrArg some (List.append_nil qs)
  · exact ⟨[], rfl⟩

/-- The packet of a call, if it is one of a file transfer. -/
theorem filePackets_singleton (p : List UInt8) :
    filePackets [p] = if isFileTransferPacket (packetId p) then [p] else [] := by
  unfold filePackets
  rw [List.filter_singleton, Bool.cond_eq_ite]

/-- What a call does with the next packet of the stream. -/
theorem Served.events (hne : f ≠ []) (hfits : FitsHeader filePath f.length defaultChunkSize)
    (hI : Served filePath dir f delivered g sent) (hc : c.Framed)
    (hrequest : env.files.request = .none) (hchunk : env.files.chunk = .none)
    (hstream : IsStream filePath f (delivered ++ [c.packet])) :
    Taken filePath dir f (delivered ++ [c.packet])
        (g.files.onRecvPacket c.buffer env.files) ∧
      g.files.events c.buffer env.files =
        if delivered.length = sliceCount f.length defaultChunkSize then
          [.complete 1 true (dir ++ 0x2F :: Path.filename filePath)] else [] := by
  obtain ⟨hsession, hevents⟩ := onRecvPacket_packet g.files hc hstream
    (List.mem_append_right _ (List.mem_singleton_self _)) env.files
  rw [hsession, hevents]
  exact hI.taken.receive hne hfits hrequest hchunk hstream

/-- **A call of the server.** -/
theorem Served.handle (hne : f ≠ []) (hfits : FitsHeader filePath f.length defaultChunkSize)
    (hI : Served filePath dir f delivered g sent) (hc : c.Framed)
    (hpacket : GameSession.PacketFits true c.packet)
    (hrequest : env.files.request = .none) (hchunk : env.files.chunk = .none)
    (hstream : IsStream filePath f (delivered ++ filePackets [c.packet])) {g' : GameSession}
    {ps : List (List UInt8)} (h : g.handle c.buffer env = some (g', ps)) :
    Served filePath dir f (delivered ++ filePackets [c.packet]) g' (sent ++ ps) := by
  have hid : packetId c.packet = packetId c.buffer :=
    GameSession.packetId_packet (hc.length_packet ▸ hpacket.header)
  rw [filePackets_singleton] at hstream ⊢
  cases hfile : isFileTransferPacket (packetId c.packet) with
  | false =>
      rw [if_neg Bool.false_ne_true, List.append_nil]
      obtain ⟨hfiles, hnone⟩ := GameSession.handle_other filePath hc hpacket hfile h
      refine ⟨hfiles ▸ hI.taken, ?_⟩
      have hnil : ps.filter (isReport filePath) = [] :=
        List.filter_eq_nil_iff.mpr fun p hp => Bool.eq_false_iff.mp (hnone p hp)
      rw [List.filter_append, hnil, List.append_nil]
      exact hI.reports
  | true =>
      rw [hfile, if_pos rfl] at hstream
      rw [if_pos rfl]
      obtain ⟨htaken, hevents⟩ := hI.events hne hfits hc hrequest hchunk hstream
      have hfile' : isFileTransferPacket (packetId c.buffer) = true := hid ▸ hfile
      have hfiles := g.files_onRecvPacket c.buffer (GameSession.surroundings env)
      rw [hfile', if_pos rfl] at hfiles
      rw [GameSession.handle_file g env hfile'] at h
      obtain ⟨qs, hqs, e⟩ := Option.map_eq_some_iff.mp h
      obtain ⟨rfl, rfl⟩ := Prod.mk.inj e
      rw [hevents] at hqs
      refine ⟨hfiles ▸ htaken, ?_⟩
      -- before the last packet there was no report
      have hbefore := hI.reports
      have hle := hstream.length_le
      rw [List.length_append, List.length_singleton] at hle
      rw [if_neg (by omega)] at hbefore
      rw [List.filter_append, List.length_append, hbefore, reports_of_events hfits.noNul _ hqs,
        List.length_append, List.length_singleton, Nat.zero_add]
      simp only [Nat.add_right_cancel_iff]

theorem filePackets_append (ps qs : List (List UInt8)) :
    filePackets (ps ++ qs) = filePackets ps ++ filePackets qs :=
  List.filter_append ps qs

theorem filePackets_cons (p : List UInt8) (ps : List (List UInt8)) :
    filePackets (p :: ps) = filePackets [p] ++ filePackets ps :=
  filePackets_append [p] ps

/-- **The calls of a read.** -/
theorem Served.handleAll (hne : f ≠ []) (hfits : FitsHeader filePath f.length defaultChunkSize) :
    ∀ {calls : List RecvCall} {g g' : GameSession} {env : Nat → CallEnv}
      {delivered sent ps : List (List UInt8)},
      Served filePath dir f delivered g sent → (∀ c ∈ calls, c.Framed) →
      (∀ c ∈ calls, GameSession.PacketFits true c.packet) →
      (∀ i, (env i).files.request = .none ∧ (env i).files.chunk = .none) →
      IsStream filePath f (delivered ++ filePackets (calls.map RecvCall.packet)) →
      ServerCore.handleAll GameSession.handle g env calls = some (g', ps) →
      Served filePath dir f (delivered ++ filePackets (calls.map RecvCall.packet)) g' (sent ++ ps)
  | [], g, g', env, delivered, sent, ps, hI, _, _, _, _, h => by
      cases h
      show Served filePath dir f (delivered ++ []) g (sent ++ [])
      rw [List.append_nil, List.append_nil]
      exact hI
  | c :: calls, g, g', env, delivered, sent, ps, hI, hcs, hpackets, hcalm, hstream, h => by
      obtain ⟨hc, hcs⟩ := List.forall_mem_cons.mp hcs
      obtain ⟨hpacket, hpackets⟩ := List.forall_mem_cons.mp hpackets
      obtain ⟨⟨g₁, ps₁⟩, h₁, h⟩ := Option.bind_eq_some_iff.mp h
      obtain ⟨⟨g₂, ps₂⟩, h₂, e⟩ := Option.map_eq_some_iff.mp h
      obtain ⟨rfl, rfl⟩ := Prod.mk.inj e
      rw [List.map_cons, filePackets_cons, ← List.append_assoc] at hstream ⊢
      have hfirst := hI.handle hne hfits hc hpacket (hcalm 0).1 (hcalm 0).2 hstream.of_append h₁
      rw [← List.append_assoc sent]
      exact hfirst.handleAll hne hfits hcs hpackets (fun i => hcalm (i + 1)) hstream h₂

/-- **They do not end the server**, where the name leaves room for the report. -/
theorem Served.exists_handleAll (hne : f ≠ [])
    (hfits : FitsHeader filePath f.length defaultChunkSize)
    (hlen : (Path.filename filePath).length ≤ 77) :
    ∀ {calls : List RecvCall} {g : GameSession} {env : Nat → CallEnv}
      {delivered sent : List (List UInt8)},
      Served filePath dir f delivered g sent → (∀ c ∈ calls, c.Framed) →
      (∀ c ∈ calls, GameSession.PacketFits true c.packet) →
      (∀ i, (env i).files.request = .none ∧ (env i).files.chunk = .none) →
      IsStream filePath f (delivered ++ filePackets (calls.map RecvCall.packet)) →
      ∃ r, ServerCore.handleAll GameSession.handle g env calls = some r
  | [], _, _, _, _, _, _, _, _, _ => ⟨_, rfl⟩
  | c :: calls, g, env, delivered, sent, hI, hcs, hpackets, hcalm, hstream => by
      obtain ⟨hc, hcs⟩ := List.forall_mem_cons.mp hcs
      obtain ⟨hpacket, hpackets⟩ := List.forall_mem_cons.mp hpackets
      rw [List.map_cons, filePackets_cons, ← List.append_assoc] at hstream
      have hid : packetId c.packet = packetId c.buffer :=
        GameSession.packetId_packet (hc.length_packet ▸ hpacket.header)
      obtain ⟨r, h₁⟩ : ∃ r, g.handle c.buffer (env 0) = some r := by
        cases hfile : isFileTransferPacket (packetId c.buffer) with
        | false => exact g.exists_handle hfile (env 0)
        | true =>
            have hnext := hstream.of_append
            rw [filePackets_singleton, hid, hfile, if_pos rfl] at hnext
            obtain ⟨-, hevents⟩ := hI.events hne hfits hc (hcalm 0).1 (hcalm 0).2 hnext
            obtain ⟨ps, hps⟩ := exists_reports hlen (env 0).mem
              (delivered.length = sliceCount f.length defaultChunkSize)
            rw [GameSession.handle_file g (env 0) hfile, hevents, hps]
            exact ⟨_, rfl⟩
      have hfirst := hI.handle hne hfits hc hpacket (hcalm 0).1 (hcalm 0).2 hstream.of_append h₁
      obtain ⟨r', h₂⟩ := hfirst.exists_handleAll hne hfits hlen hcs hpackets
        (fun i => hcalm (i + 1)) hstream
      rw [ServerCore.handleAll, h₁, Option.bind_some, h₂]
      exact ⟨_, rfl⟩

end Served

/-! ## 4. The client -/

section Client

variable {c c' : ClientEnd} {env : CallEnv} {ps : List (List UInt8)}

/-- A packet that is none of a file transfer leaves the transfers of the client alone. -/
theorem ClientEnd.files_handle {buffer : List UInt8}
    (hfile : isFileTransferPacket (packetId buffer) = false)
    (h : c.handle buffer env = some (c', ps)) : c'.files = c.files := by
  unfold handle at h
  dsimp only at h
  obtain ⟨r, hr, h⟩ := Option.bind_eq_some_iff.mp h
  obtain ⟨notices, -, e⟩ := Option.map_eq_some_iff.mp h
  obtain ⟨rfl, -⟩ := Prod.mk.inj e
  have hstress : ∀ {p : ServerPacket} {reads : List ReadRange} {r},
      c.onStress p reads = some r → r.1.files = c.files := by
    intro p reads r hr
    obtain ⟨_, -, rfl⟩ := Option.map_eq_some_iff.mp hr
    rfl
  unfold onRecvPacket at hr
  dsimp only at hr
  rw [hfile] at hr
  split at hr
  · cases hr
    rfl
  · split at hr
    · exact hstress hr
    · split at hr
      · split at hr
        · cases hr
          rfl
        · exact hstress hr
      · split at hr
        · exact hstress hr
        · cases hr
          rfl

theorem ClientEnd.files_handleAll : ∀ {calls : List RecvCall} {c c' : ClientEnd}
    {env : Nat → CallEnv} {ps : List (List UInt8)},
    (∀ c ∈ calls, isFileTransferPacket (packetId c.buffer) = false) →
    handleAll ClientEnd.handle c env calls = some (c', ps) → c'.files = c.files
  | [], _, _, _, _, _, h => by
      cases h
      rfl
  | call :: calls, c, c', env, ps, hcs, h => by
      obtain ⟨hcall, hcs⟩ := List.forall_mem_cons.mp hcs
      obtain ⟨⟨c₁, ps₁⟩, h₁, h⟩ := Option.bind_eq_some_iff.mp h
      obtain ⟨⟨c₂, ps₂⟩, h₂, e⟩ := Option.map_eq_some_iff.mp h
      obtain ⟨rfl, -⟩ := Prod.mk.inj e
      exact (files_handleAll hcs h₂).trans (files_handle hcall h₁)

/-- What is on the way to the server, where no read takes it up. -/
theorem StressWire.put_of_next {s s' : StressWire} {t : StressTest} {l : WireStep}
    (hcarries : s.Carries True t) (hok : Sends True False s l) (hl : ∀ n env, l ≠ .toServer n env)
    (h : s.next l = some s') :
    (∃ ps, s'.toServer = s.toServer.put ps ∧ ∀ p ∈ ps, FromClient False p) ∧
      s'.server = s.server ∧ s'.serverSent = s.serverSent ∧ s'.client.files = s.client.files := by
  have hstress : ∀ {env : SendEnv} {r : StressClient × List ClientPacket},
      (∀ p ∈ r.2, p.InRange) → ∀ p ∈ r.2.map (r.1.bytesOf env), FromClient False p :=
    fun {_ r} hr => (r.1.sent_spec False _ hr).2
  cases l with
  | request d env =>
      cases h
      exact ⟨⟨_, rfl, hstress (StressClient.inRange_requestStressTest _ d)⟩, rfl, rfl, rfl⟩
  | send packet =>
      cases h
      exact ⟨⟨_, rfl, List.forall_mem_singleton.mpr hok.1⟩, rfl, rfl, rfl⟩
  | expire =>
      obtain ⟨c, hc, rfl⟩ := Option.map_eq_some_iff.mp h
      exact ⟨⟨[], s.toServer.put_nil.symm, List.forall_mem_nil _⟩, rfl, rfl, rfl⟩
  | timer env =>
      obtain ⟨r, hr, rfl⟩ := Option.map_eq_some_iff.mp h
      exact ⟨⟨_, rfl, hstress (StressClient.inRange_onTimer hr)⟩, rfl, rfl, rfl⟩
  | toServer n env => exact absurd rfl (hl n env)
  | toClient n env =>
      obtain ⟨⟨pipe, calls⟩, hread, h⟩ := Option.bind_eq_some_iff.mp h
      obtain ⟨⟨client, ps⟩, hcalls, rfl⟩ := Option.map_eq_some_iff.mp h
      obtain ⟨later, hH, ht, hfits⟩ := hcarries.toClient
      obtain ⟨later', rfl, hframed, -, -⟩ := hH.taken hread
      rw [List.filterMap_append] at ht
      have hfrom : ∀ c ∈ calls, FromServer c.packet := fun c hc =>
        hfits _ (List.mem_append_left _ (List.mem_map_of_mem hc))
      obtain ⟨-, hps⟩ := StressTest.reach_toClient True False hframed
        (fun c hc => (hfrom c hc).fits) hcalls hcarries.client ht
      refine ⟨⟨ps, rfl, hps⟩, rfl, rfl, ClientEnd.files_handleAll (fun c hc => ?_) hcalls⟩
      rw [← GameSession.packetId_packet ((hframed c hc).length_packet ▸ (hfrom c hc).fits.header)]
      exact (hfrom c hc).noFile

/-- The packets of file transfers among those that go out on events. -/
theorem filePackets_sentOn {f : Bool → Path → Option (List (List UInt8))}
    (hf : ∀ success filePath ps, f success filePath = some ps → filePackets ps = []) :
    ∀ (events : List TransferEvent) {ps : List (List UInt8)},
      (∀ p, .send p ∈ events → isFileTransferPacket (packetId p) = true) →
      sentOn f events = some ps → filePackets ps = packets events
  | [], _, _, h => by
      cases h
      rfl
  | .send p :: events, _, hsend, h => by
      obtain ⟨ps, hps, rfl⟩ := Option.map_eq_some_iff.mp h
      have hrest := filePackets_sentOn hf events
        (fun q hq => hsend q (List.mem_cons_of_mem _ hq)) hps
      rw [filePackets_cons, filePackets_singleton, if_pos (hsend p (List.mem_cons_self ..)), hrest]
      rfl
  | .complete _ success filePath :: events, _, hsend, h => by
      obtain ⟨ps, hps, h⟩ := Option.bind_eq_some_iff.mp h
      obtain ⟨qs, hqs, rfl⟩ := Option.map_eq_some_iff.mp h
      have hrest := filePackets_sentOn hf events
        (fun q hq => hsend q (List.mem_cons_of_mem _ hq)) hqs
      rw [filePackets_append, hf _ _ _ hps, hrest]
      rfl
  | .schedule _ :: events, _, hsend, h => by
      have hrest := filePackets_sentOn hf events (fun q hq => hsend q (List.mem_cons_of_mem _ hq)) h
      rw [hrest]
      rfl

theorem mem_packets {events : List TransferEvent} {p : List UInt8} (h : .send p ∈ events) :
    p ∈ packets events :=
  List.mem_filterMap.mpr ⟨_, h, rfl⟩

theorem filePackets_of_noFile {ps : List (List UInt8)}
    (h : ∀ p ∈ ps, isFileTransferPacket (packetId p) = false) : filePackets ps = [] :=
  List.filter_eq_nil_iff.mpr fun p hp => Bool.eq_false_iff.mp (h p hp)

theorem FromClient.noFile {p : List UInt8} (h : FromClient False p) :
    isFileTransferPacket (packetId p) = false :=
  Bool.eq_false_iff.mpr h.file

/-- The reports of the client are chat packets. -/
theorem filePackets_transferComplete {mem : Memory} {success : Bool} {filePath : Path}
    {ps : List (List UInt8)}
    (h : ClientSession.transferComplete mem success filePath false = some ps) :
    filePackets ps = [] := by
  unfold ClientSession.transferComplete at h
  split at h
  · obtain ⟨q, hq, rfl⟩ := Option.map_eq_some_iff.mp h
    exact filePackets_of_noFile
      (List.forall_mem_singleton.mpr (fromClient_chatPacket False hq).1.noFile)
  · cases h
    rfl

end Client

/-! ## 5. The whole -/

namespace FileWire

/-- **The invariant**: the streams carry packets, and the packets of the file that the server has
    taken up and those on the way are what the client has sent for it. -/
structure FileInv (fs : FileSystem) (filePath dir : Path) (f : List UInt8) (s : FileWire) :
    Prop where
  carries : ∃ t, s.wire.Carries True t
  files : s.wire.client.files.fs = fs
  stream : ∃ delivered later, s.wire.toServer.Holds [] later ∧
    s.sending.Sending fs filePath f (delivered ++ filePackets later) ∧
    Served filePath dir f delivered s.wire.server s.wire.serverSent

section Inv

variable {fs : FileSystem} {filePath dir : Path} {f : List UInt8} {s s' : FileWire}

/-- The client goes on with its transfers. -/
theorem FileInv.file (hfs : fs.Sized) (hfile : fs.files filePath = some f)
    (hfits : FitsHeader filePath f.length defaultChunkSize) (hI : s.FileInv fs filePath dir f)
    {l : SessionStep} {mem : Memory} (hok : SendsFile filePath s (.file l mem))
    (h : s.next (.file l mem) = some s') : s'.FileInv fs filePath dir f := by
  obtain ⟨⟨t, ht⟩, hfs', delivered, later, hH, hsending, hserved⟩ := hI
  obtain ⟨hsingle, honly⟩ := hok
  rw [hfs'] at hsingle
  obtain ⟨c, hc, h⟩ := Option.bind_eq_some_iff.mp h
  obtain ⟨ps, hps, rfl⟩ := Option.map_eq_some_iff.mp h
  rw [hfs'] at hc hps
  have hmore := hsending.step hfs hfile hfits hsingle honly hc
  -- what is sent belongs to the stream
  have hsend : ∀ p, .send p ∈ s.sending.transferEvents fs l →
      FromClient True p ∧ clientPacketOf p = none ∧ isFileTransferPacket (packetId p) = true :=
    fun p hp => hmore.isStream.fromClient (List.mem_append_right _ (mem_packets hp))
  have hfrom := fromClient_sentOn True (fun p hp => ⟨(hsend p hp).1, (hsend p hp).2.1⟩) hps
  have hpackets : filePackets ps = packets (s.sending.transferEvents fs l) :=
    filePackets_sentOn (fun _ _ _ h => filePackets_transferComplete h) _
      (fun p hp => (hsend p hp).2.2) hps
  have hcarries : StressWire.Carries True (s.wire.fromClient (s.clientAt c) ps)
      (t.fromClient t.client []) :=
    ht.fromClient (show t.client = (s.clientAt c).stressTest from ht.client)
      (fun p hp => (hfrom p hp).1) (List.filterMap_eq_nil_iff.mpr fun p hp => (hfrom p hp).2)
  refine ⟨⟨_, hcarries⟩, hfs', delivered, later ++ ps,
    hH.put fun p hp => (hfrom p hp).1.wellFormed, ?_, hserved⟩
  rw [filePackets_append, hpackets, ← List.append_assoc]
  exact hmore

/-- A step of the streams. -/
theorem FileInv.wire (hne : f ≠ []) (hfits : FitsHeader filePath f.length defaultChunkSize)
    (hI : s.FileInv fs filePath dir f) {l : WireStep} (hok : SendsFile filePath s (.wire l))
    (h : s.next (.wire l) = some s') : s'.FileInv fs filePath dir f := by
  obtain ⟨⟨t, ht⟩, hfs', delivered, later, hH, hsending, hserved⟩ := hI
  obtain ⟨w, hw, rfl⟩ := Option.map_eq_some_iff.mp h
  have hsends : StressWire.Sends True False s.wire l := by
    cases l with
    | send packet => exact hok
    | _ => trivial
  have hsends' : StressWire.Sends True True s.wire l := by
    cases l with
    | send packet => exact ⟨⟨hok.1.wellFormed, hok.1.fits, fun _ => trivial⟩, hok.2⟩
    | _ => trivial
  obtain ⟨t', -, ht'⟩ := ht.step hsends' hw
  by_cases hl : ∃ n env, l = .toServer n env
  · obtain ⟨n, env, rfl⟩ := hl
    obtain ⟨⟨pipe, calls⟩, hread, hw⟩ := Option.bind_eq_some_iff.mp hw
    obtain ⟨⟨server, ps⟩, hcalls, rfl⟩ := Option.map_eq_some_iff.mp hw
    obtain ⟨later₀, hH₀, -, hfrom⟩ := ht.toServer
    obtain rfl := hH₀.unique hH
    obtain ⟨later', rfl, hframed, -, hH'⟩ := hH.taken hread
    rw [filePackets_append, ← List.append_assoc] at hsending
    refine ⟨⟨t', ht'⟩, hfs', _, later', hH', hsending, ?_⟩
    exact hserved.handleAll hne hfits hframed
      (fun c hc => (hfrom _ (List.mem_append_left _ (List.mem_map_of_mem hc))).fits)
      hok hsending.isStream.of_append hcalls
  · obtain ⟨⟨ps, hput, hps⟩, hserver, hsent, hfiles⟩ :=
      StressWire.put_of_next ht hsends (fun n env e => hl ⟨n, env, e⟩) hw
    refine ⟨⟨t', ht'⟩, hfiles ▸ hfs', delivered, later ++ ps, ?_, ?_, ?_⟩
    · show w.toServer.Holds [] _
      rw [hput]
      exact hH.put fun p hp => (hps p hp).wellFormed
    · rw [filePackets_append, filePackets_of_noFile fun p hp => (hps p hp).noFile, List.append_nil]
      unfold sending
      dsimp only
      rw [hfiles]
      exact hsending
    · show Served filePath dir f delivered w.server w.serverSent
      rw [hserver, hsent]
      exact hserved

/-- Other files of the server change. -/
theorem FileInv.elsewhere (hI : s.FileInv fs filePath dir f) {fs' : FileSystem}
    (hok : SendsFile filePath s (.elsewhere fs')) (h : s.next (.elsewhere fs') = some s') :
    s'.FileInv fs filePath dir f := by
  obtain ⟨⟨t, ht⟩, hfs', delivered, later, hH, hsending, hserved⟩ := hI
  cases h
  have hdir := hserved.taken.directory
  unfold SendsFile receivedPath at hok
  dsimp only at hok
  rw [hdir] at hok
  refine ⟨⟨t, ht.client, ht.server, ht.toServer, ht.toClient, ht.clientSent, ht.serverSent⟩, hfs',
    delivered, later, hH, hsending, ?_, hserved.reports⟩
  cases hserved.taken with
  | nothing _ hnew _ => exact .nothing _ hnew hdir
  | slices request chunks _ context _ hreceiving hlast hsent htotal =>
      exact .slices request chunks _ context hdir
        ⟨hreceiving.context, hreceiving.directory, hok ▸ hreceiving.file⟩ hlast hsent htotal

/-- **One step.** -/
theorem FileInv.step (hfs : fs.Sized) (hfile : fs.files filePath = some f) (hne : f ≠ [])
    (hfits : FitsHeader filePath f.length defaultChunkSize) (hI : s.FileInv fs filePath dir f)
    {l : FileStep} (hok : SendsFile filePath s l) (h : s.next l = some s') :
    s'.FileInv fs filePath dir f := by
  cases l with
  | wire l => exact hI.wire hne hfits hok h
  | file l mem => exact hI.file hfs hfile hfits hok h
  | elsewhere fs' => exact hI.elsewhere hok h

theorem fileInv_start {client : ClientEnd} {server : GameSession}
    (hclient : client.files.fileTransferManager = .new)
    (hserver : server.files.fileTransferManager = .new) :
    (start client server).FileInv client.files.fs filePath server.files.fileReceiveDirectory f
    where
  carries := ⟨_, StressWire.carries_start True client server⟩
  files := rfl
  stream := by
    refine ⟨[], [], PacketPipe.holds_start, .fresh ?_, .nothing _ hserver rfl, ?_⟩
    · unfold sending start
      show ClientSession.mk client.files.fileTransferManager [] [] [] = .connected
      rw [hclient]
      rfl
    · rw [if_neg (by simp)]
      rfl

/-- **The transfer of the file**, as far as it is. -/
structure Transfers (filePath : Path) (f : List UInt8) (s : FileWire) : Prop where
  /-- a report is true -/
  reported : ∀ p ∈ s.wire.serverSent, isReport filePath p = true →
    s.wire.server.files.fs.files (s.receivedPath filePath) = some f
  once : (s.wire.serverSent.filter (isReport filePath)).length ≤ 1
  /-- at rest with nothing on the way, what SendFile has sent is there and is reported -/
  arrives : s.sending.Quiescent → s.wire.toServer.onWay = [] → s.sent ≠ [] →
    s.wire.server.files.fs.files (s.receivedPath filePath) = some f ∧
      (s.wire.serverSent.filter (isReport filePath)).length = 1
  /-- no read ends the server, where the name leaves room for the report -/
  reads : (Path.filename filePath).length ≤ 77 → ∀ n env,
    (∀ i, (env i).files.request = .none ∧ (env i).files.chunk = .none) → 1 ≤ n →
    n ≤ s.wire.toServer.onWay.length → (n : Int) ≤ Session.bufferSize →
    ∃ w, s.wire.next (.toServer n env) = some w ∧
      w.toServer.onWay = s.wire.toServer.onWay.drop n

theorem FileInv.transfers (hne : f ≠ []) (hfits : FitsHeader filePath f.length defaultChunkSize)
    (hI : s.FileInv fs filePath dir f) : s.Transfers filePath f := by
  obtain ⟨⟨t, ht⟩, -, delivered, later, hH, hsending, hserved⟩ := hI
  have hpath : s.receivedPath filePath = dir ++ 0x2F :: Path.filename filePath := by
    rw [receivedPath, hserved.taken.directory]
  have hreports := hserved.reports
  have hcontent : delivered.length = sliceCount f.length defaultChunkSize + 1 →
      s.wire.server.files.fs.files (s.receivedPath filePath) = some f := fun hall => by
    rw [hpath]
    exact hserved.taken.content hfits hsending.isStream.of_append hall
  refine ⟨fun p hp hreport => ?_, ?_, fun hq hway hsent => ?_,
    fun hlen n env hcalm h1 hle hsize => ?_⟩
  · refine hcontent ?_
    by_contra hall
    rw [if_neg hall] at hreports
    have hnil := List.length_eq_zero_iff.mp hreports
    nomatch hnil ▸ List.mem_filter.mpr ⟨hp, hreport⟩
  · rw [hreports]
    split
    · exact Nat.le_refl 1
    · exact Nat.zero_le 1
  · obtain ⟨rfl, -⟩ := hH.nil_of_empty hway
    have hall := hsending.all_of_quiescent hq hsent
    rw [show filePackets [] = [] from rfl, List.append_nil] at hall
    exact ⟨hcontent hall, hreports.trans (if_pos hall)⟩
  · obtain ⟨later₀, hH₀, -, hfrom⟩ := ht.toServer
    obtain rfl := hH₀.unique hH
    obtain ⟨r, calls, qs, later', hread, rfl, hpackets, hframed, -, -⟩ :=
      hH.read (hH.readFits h1 hle hsize)
    rw [filePackets_append, ← List.append_assoc, ← hpackets] at hsending
    obtain ⟨r', hr'⟩ := hserved.exists_handleAll hne hfits hlen hframed
      (fun c hc => (hfrom _ (List.mem_append_left _ (hpackets ▸ List.mem_map_of_mem hc))).fits)
      hcalm hsending.isStream.of_append
    refine ⟨{ s.wire with toServer := ⟨s.wire.toServer.onWay.drop n, r⟩ }.fromServer r'.1 r'.2,
      ?_, rfl⟩
    rw [StressWire.next, hread, Option.bind_some]
    dsimp only
    rw [hr']
    rfl

end Inv

/-- **A file transfer over the streams.** A client just connected sends one file, with any chat and
    stress test beside it, in any order of its threads and of the reads, of any size: a report of
    the server is true and comes at most once; and with the client at rest and nothing on the way
    the file is there, as SendFile has said, and was reported. -/
theorem file_wire_transfers (client : ClientEnd) (server : GameSession) (filePath : Path)
    (f : List UInt8) (hclient : client.files.fileTransferManager = .new)
    (hserver : server.files.fileTransferManager = .new) (hfs : client.files.fs.Sized)
    (hfile : client.files.fs.files filePath = some f) (hne : f ≠ [])
    (hfits : FitsHeader filePath f.length defaultChunkSize) (s : FileWire)
    (hr : Reach next (SendsFile filePath) (start client server) s) : s.Transfers filePath f := by
  have hI : s.FileInv client.files.fs filePath server.files.fileReceiveDirectory f :=
    hr.invariant (fileInv_start hclient hserver) fun _ _ _ hI hok h =>
      hI.step hfs hfile hne hfits hok h
  exact hI.transfers hne hfits

theorem next_file_of_some (s : FileWire) (mem : Memory) {l : SessionStep} {c : ClientSession}
    {ps : List (List UInt8)} (hc : s.sending.next s.wire.client.files.fs l = some c)
    (hps : sentOn (fun success filePath =>
      ClientSession.transferComplete mem success filePath false)
      (s.sending.transferEvents s.wire.client.files.fs l) = some ps) :
    s.next (.file l mem) =
      some ⟨s.wire.fromClient (s.clientAt c) ps, c.sendFiles, c.scheduled, c.sent⟩ := by
  unfold next
  dsimp only
  rw [hc, Option.bind_some, hps]
  rfl

/-- A client with the file `a` of three bytes. -/
def sender : ClientEnd :=
  { StressWire.idleClient with files := ⟨FileSystem.empty.setFile [0x61] [1, 2, 3], .new, [0x63]⟩ }

/-- The file is sent: the request, its only chunk and the message of the client are on the way. -/
theorem exists_sent_file : ∃ s, Reach next (SendsFile [0x61]) (start sender .new) s ∧
    s.wire.toServer.onWay.length = 403 ∧ s.sending.Quiescent ∧ s.sent ≠ [] := by
  have hfile : sender.files.fs.files [0x61] = some [1, 2, 3] := rfl
  obtain ⟨request, hrequest, hstart⟩ := startFileSend_of_file .new defaultChunkSize (fun _ => 0)
    hfile (by decide) (by decide)
  have hlen := length_createFileRequestPacket hrequest
  -- SendFile up to its call of SendNextChunk
  have hevents : ClientSession.connected.transferEvents sender.files.fs
      (.sendFile [0x61] (fun _ => 0) false false) = [.send request] := by
    unfold ClientSession.transferEvents
    dsimp only
    rw [if_neg (by decide), show ClientSession.connected.manager = .new from rfl, hstart]
    rfl
  let c₁ : ClientSession := ⟨(FileTransferManager.bump .new).setContext 1
    (contextAfter [0x61] 3 defaultChunkSize 0), [1], [], []⟩
  let s₁ : FileWire := ⟨(StressWire.start sender .new).fromClient ((start sender .new).clientAt c₁)
    [request], [1], [], []⟩
  have h₁ : (start sender .new).next (.file (.sendFile [0x61] (fun _ => 0) false false)
      fun _ => 0) = some s₁ :=
    (start sender .new).next_file_of_some (fun _ => 0) (ClientSession.next_sendFile_of_file
      .connected (fun _ => 0) hfile (by decide) (by decide)) (congrArg (sentOn _) hevents)
  -- the only slice
  have hfind := FileTransferManager.findTransfer_of_find?
    (FileTransferManager.find?_setContext_self (FileTransferManager.bump .new) 1
      (contextAfter [0x61] 3 defaultChunkSize 0))
  obtain ⟨p, hread, hplen, hsend⟩ := sendNextChunk_of_lt (fun _ => 0) hfile (by decide) (by decide)
    hfind (by decide)
  rw [if_pos (by decide)] at hsend
  obtain ⟨qs, hqs⟩ := Option.isSome_iff_exists.mp
    ((ClientSession.transferComplete_isSome_iff (fun _ => 0) [0x61]).mpr (by decide))
  have hqlen : qs.flatten.length = 104 := by
    unfold ClientSession.transferComplete ClientSession.sendChatPacket at hqs
    obtain ⟨q, hq, rfl⟩ := Option.map_eq_some_iff.mp hqs
    rw [List.flatten_singleton]
    exact length_chatPacket hq
  have hmem : 1 ∈ s₁.sending.sendFiles := List.mem_singleton_self 1
  have hevents₂ : s₁.sending.transferEvents sender.files.fs (.firstChunk 1 (fun _ => 0) .none) =
      [.send p, .complete 1 true [0x61]] := by
    unfold ClientSession.transferEvents ClientSession.events
    dsimp only
    rw [if_pos hmem]
    exact congrArg (fun r => r.2.2) hsend
  have hsent : sentOn (fun success filePath =>
      ClientSession.transferComplete (fun _ => 0) success filePath false)
      (s₁.sending.transferEvents sender.files.fs (.firstChunk 1 (fun _ => 0) .none)) =
      some (p :: (qs ++ [])) := by
    rw [hevents₂, sentOn, sentOn, hqs]
    rfl
  have h₂ := s₁.next_file_of_some (fun _ => 0)
    (ClientSession.next_firstChunk_of_true hmem hsend) hsent
  have hok₁ : SendsFile [0x61] (start sender .new)
      (.file (.sendFile [0x61] (fun _ => 0) false false) fun _ => 0) :=
    ⟨.inr (.inr (.inr rfl)), rfl⟩
  have hok₂ : SendsFile [0x61] s₁ (.file (.firstChunk 1 (fun _ => 0) .none) fun _ => 0) :=
    ⟨trivial, trivial⟩
  refine ⟨_, .step _ _ _ (.step _ _ _ .start hok₁ h₁) hok₂ h₂, ?_, ⟨rfl, rfl⟩, List.cons_ne_nil _ _⟩
  have hp19 : p.length = 19 := by
    rw [hplen, hread]
    rfl
  show (([] ++ [request].flatten) ++ (p :: (qs ++ [])).flatten).length = 403
  rw [List.append_nil, List.nil_append, List.flatten_singleton, List.flatten_cons,
    List.length_append, List.length_append, hlen, hp19, hqlen]
  rfl

/-- It arrives in two reads, the first of them inside the request. -/
theorem file_wire_transfers_two_reads : ∃ s, Reach next (SendsFile [0x61]) (start sender .new) s ∧
    s.Transfers [0x61] [1, 2, 3] ∧
    s.wire.server.files.fs.files (s.receivedPath [0x61]) = some [1, 2, 3] ∧
    (s.wire.serverSent.filter (isReport [0x61])).length = 1 := by
  obtain ⟨s, hr, hlen, hq, hsent⟩ := exists_sent_file
  have hsized : sender.files.fs.Sized := FileSystem.sized_empty.setFile (by decide)
  have hfits : FitsHeader [0x61] ([1, 2, 3] : List UInt8).length defaultChunkSize :=
    ⟨by decide, by decide, by decide⟩
  have hall := file_wire_transfers sender .new [0x61] [1, 2, 3] rfl rfl hsized rfl (by decide) hfits
  have hcalm : ∀ i, (StressWire.calm i).files.request = .none ∧
      (StressWire.calm i).files.chunk = .none := fun _ => ⟨rfl, rfl⟩
  -- a read of the run goes through
  have hread : ∀ s, Reach next (SendsFile [0x61]) (start sender .new) s → ∀ n, 1 ≤ n →
      n ≤ s.wire.toServer.onWay.length → n ≤ 403 → ∃ w,
        Reach next (SendsFile [0x61]) (start sender .new) { s with wire := w } ∧
          w.toServer.onWay = s.wire.toServer.onWay.drop n := by
    intro s hr n h1 hle h403
    have hbuffer : (403 : Int) ≤ Session.bufferSize := by decide
    obtain ⟨w, hw, hdrop⟩ := (hall s hr).reads (by decide) n StressWire.calm hcalm h1 hle
      (by omega)
    have hstep : s.next (.wire (.toServer n StressWire.calm)) = some { s with wire := w } := by
      unfold next
      dsimp only
      rw [hw]
      rfl
    have hok : SendsFile [0x61] s (.wire (.toServer n StressWire.calm)) := hcalm
    exact ⟨w, .step _ _ _ hr hok hstep, hdrop⟩
  obtain ⟨w, hr₁, hdrop₁⟩ := hread s hr 100 (by decide) (by omega) (by decide)
  have hlen₁ : w.toServer.onWay.length = 303 := by
    rw [hdrop₁, List.length_drop, hlen]
  obtain ⟨w', hr₂, hdrop₂⟩ := hread _ hr₁ 303 (by decide) (Nat.le_of_eq hlen₁.symm) (by decide)
  have hway : w'.toServer.onWay = [] := by
    rw [hdrop₂]
    exact List.drop_eq_nil_of_le (Nat.le_of_eq hlen₁)
  have htransfers := hall _ hr₂
  obtain ⟨hcontent, hreport⟩ := htransfers.arrives hq hway hsent
  exact ⟨_, hr₂, htransfers, hcontent, hreport⟩

end FileWire

end ServerCore
