/-
  File:      ServerCore/GameSession.lean
  Subject:   GameSession::OnRecvPacket (server.cpp), and what it reads of a packet.

  The handlers cast the buffer to the structure that the packet id names and never look at `len`.
  Beside what a handler does, `onRecvPacket` lists the ranges it reads through these casts; a
  string is read up to its NUL, wherever that is. The bytes behind the header of a `FileChunk`
  are not of them.

  `packet_reads_law`: all that the handlers read of the packets of a stream lies in these packets
  exactly where each of them is long enough for its id and holds the NUL of its string
  (`PacketFits`).
-/
import ServerCore.FileReceive
import ServerCore.Handover
import ServerCore.StressTest

namespace ServerCore

open Seg LittleEndian

/-! ## 1. Reads -/

/-- A read of `length` bytes from `buffer + offset` on. -/
structure ReadRange where
  offset : Nat
  length : Nat
  deriving DecidableEq, Repr

/-- The read of a string: up to the NUL, and that too. -/
def ReadRange.cString (buffer : List UInt8) (offset : Nat) : ReadRange :=
  ⟨offset, ((buffer.drop offset).takeWhile (· != 0)).length + 1⟩

/-- The reads lie within `[buffer, buffer + len)`. -/
def ReadsInside (reads : List ReadRange) (len : Nat) : Prop :=
  ∀ r ∈ reads, r.offset + r.length ≤ len

@[simp] theorem readsInside_nil (len : Nat) : ReadsInside [] len := List.forall_mem_nil _

@[simp] theorem readsInside_cons (r : ReadRange) (reads : List ReadRange) (len : Nat) :
    ReadsInside (r :: reads) len ↔ r.offset + r.length ≤ len ∧ ReadsInside reads len :=
  List.forall_mem_cons

@[simp] theorem readsInside_append (reads reads' : List ReadRange) (len : Nat) :
    ReadsInside (reads ++ reads') len ↔ ReadsInside reads len ∧ ReadsInside reads' len :=
  List.forall_mem_append

/-- A scan stops before `n` exactly if there is a NUL before `n`. -/
theorem length_takeWhile_lt_iff {bs : List UInt8} : ∀ {n : Nat}, n ≤ bs.length →
    ((bs.takeWhile (· != 0)).length < n ↔ 0 ∈ bs.take n) := by
  induction bs with
  | nil =>
      intro n hn
      obtain rfl := Nat.le_zero.mp hn
      simp
  | cons b bs ih =>
      intro n hn
      cases n with
      | zero => simp
      | succ n =>
          rw [List.takeWhile_cons, List.take_succ_cons, List.mem_cons]
          by_cases hb : b = 0
          · simp [hb]
          · simp only [bne_iff_ne.mpr hb, if_true, List.length_cons]
            rw [Nat.add_lt_add_iff_right, ih (Nat.le_of_succ_le_succ hn)]
            exact (or_iff_right (Ne.symm hb)).symm

/-- **A string is read inside** exactly if its NUL is there. -/
@[simp] theorem ReadRange.cString_inside {buffer : List UInt8} {offset len : Nat}
    (hoff : offset ≤ len) (hlen : len ≤ buffer.length) :
    (cString buffer offset).offset + (cString buffer offset).length ≤ len ↔
      0 ∈ (buffer.take len).drop offset := by
  rw [List.drop_take, ← length_takeWhile_lt_iff (by rw [List.length_drop]; omega)]
  unfold cString
  dsimp only
  omega

theorem readLe_uint32_lt (p : List UInt8) (offset : Nat) : readLe p offset 4 < 2 ^ 32 :=
  readLe_lt p offset 4

/-! ## 2. The handlers -/

/-- `PKT_C_CHAT` -/
def pktCChat : Nat := 1

/-- `PKT_C_STRESS_START` -/
def pktCStressStart : Nat := 3

/-- `PKT_C_STRESS_DATA` -/
def pktCStressData : Nat := 5

/-- `PKT_C_STRESS_END` -/
def pktCStressEnd : Nat := 7

/-- `FileTransferPacketId::FileTransferResponse` -/
def fileTransferResponse : Nat := 101

/-- `FileTransferPacketId::FileTransferComplete` -/
def fileTransferComplete : Nat := 103

/-- `FileTransferPacketId::FileTransferError` -/
def fileTransferError : Nat := 104

/-- `IsFileTransferPacket(packetId)` -/
def isFileTransferPacket (packetId : Nat) : Bool :=
  packetId = fileTransferRequest || packetId = fileTransferResponse ||
    packetId = fileDataChunk || packetId = fileTransferComplete || packetId = fileTransferError

/-- The reads of `FilePacketSession::OnRecvPacket` and the handlers it calls. -/
def FilePacketSession.reads (buffer : List UInt8) : List ReadRange :=
  -- `header->id`, and `header->size` for the log
  [⟨2, 2⟩, ⟨0, 2⟩] ++
    if packetId buffer = fileTransferRequest then
      -- `filename`: for the log of OnRecvPacket, of HandleFileRequest and of StartFileReceive,
      -- and for the path; then `fileSize` and `chunksTotal`
      [.cString buffer 4, .cString buffer 4, .cString buffer 4, .cString buffer 4,
        ⟨264, 8⟩, ⟨272, 4⟩]
    else if packetId buffer = fileDataChunk then
      -- `chunkId`, `chunkSize`, `isLast`
      [⟨4, 4⟩, ⟨8, 4⟩, ⟨12, 1⟩]
    else []

/-- A `GameSession`: its stress test and its file transfers. -/
structure GameSession where
  stressTest : StressServer
  files : FilePacketSession

/-- What a `GameSession` sends. -/
inductive GameReply where
  | chat (msg : String)
  | stress (packet : ServerPacket)
  deriving DecidableEq

/-- What surrounds a call of `OnRecvPacket`: whether `OnDisconnected` has been called since the
    last one, whether the send buffers cannot be opened, and what the file handlers meet. -/
structure GameSurroundings where
  disconnected : Bool
  openFails : Bool
  files : Surroundings
  deriving DecidableEq, Repr

namespace GameSession

/-- `OnDisconnected()` -/
def onDisconnected (g : GameSession) : GameSession :=
  { g with stressTest := { g.stressTest with stressTestActive := false } }

/-- The session as the next call of `OnRecvPacket` finds it. -/
def before (g : GameSession) (env : GameSurroundings) : GameSession :=
  if env.disconnected then g.onDisconnected else g

/-- The stress test handles `packet`; it replies where a send buffer can be opened. -/
def onStress (g : GameSession) (packet : ClientPacket) (openFails : Bool) :
    GameSession × List GameReply :=
  let (stressTest, packets) := g.stressTest.onRecvPacket packet
  ({ g with stressTest }, if openFails then [] else packets.map .stress)

/-- `*startData` -/
def startData (buffer : List UInt8) : StressTestStartData where
  messageCount := readLe buffer 4 4
  messageSize := readLe buffer 8 4
  intervalMs := readLe buffer 12 4
  messageCount_lt := readLe_uint32_lt buffer 4
  messageSize_lt := readLe_uint32_lt buffer 8
  intervalMs_lt := readLe_uint32_lt buffer 12

/-- `header->size - sizeof(PacketHeader)` in 64 bits -/
def echoSize (buffer : List UInt8) : Nat :=
  u64 (PacketHeader.size buffer + (2 ^ 64 - sizeofPacketHeader))

/-- The reads of the header: the size is only logged, and not during a stress test. -/
def headerReads (active : Bool) (id : Nat) : List ReadRange :=
  if !active || id ≠ pktCStressData then [⟨2, 2⟩, ⟨0, 2⟩] else [⟨2, 2⟩]

/-- `OnRecvPacket(buffer, len)`: the session afterwards, what it sends, and what it has read of
    `buffer`. -/
def onRecvPacket (g : GameSession) (buffer : List UInt8) (env : GameSurroundings) :
    GameSession × List GameReply × List ReadRange :=
  let active := g.stressTest.stressTestActive
  let id := packetId buffer
  let header := headerReads active id
  if id = pktCChat then
    (g, [.chat "Server received your message!"], header ++ [.cString buffer 4])
  else if id = pktCStressStart then
    let (g, replies) := g.onStress (.stressStart (startData buffer)) false
    (g, replies, header ++ [⟨4, 4⟩, ⟨8, 4⟩, ⟨12, 4⟩])
  else if id = pktCStressData then
    if !active then (g, [], header)
    else
      let (g, replies) := g.onStress (.stressData (readLe buffer 4 4)) env.openFails
      -- `timestamp`, `sequenceNumber`, `size`; then the memcpy of the echo
      (g, replies, header ++ [⟨8, 4⟩, ⟨4, 4⟩, ⟨0, 2⟩] ++
        if env.openFails then [] else [⟨4, echoSize buffer⟩, ⟨8, 4⟩])
  else if id = pktCStressEnd then
    if !active then (g, [], header)
    else
      let (g, replies) := g.onStress .stressEnd env.openFails
      (g, replies, header)
  else if isFileTransferPacket id then
    ({ g with files := g.files.onRecvPacket buffer env.files }, [],
      header ++ FilePacketSession.reads buffer)
  else (g, [], header)

/-! ## 3. What a packet must hold -/

/-- **The packet fits its id**: a header, the fields that are read of it, and the NUL of the string
    that is read of it. -/
structure PacketFits (active : Bool) (p : List UInt8) : Prop where
  header : 4 ≤ p.length
  chat : packetId p = pktCChat → 0 ∈ p.drop 4
  stressStart : packetId p = pktCStressStart → 16 ≤ p.length
  stressData : packetId p = pktCStressData → active = true → 12 ≤ p.length
  fileRequest : packetId p = fileTransferRequest → 276 ≤ p.length ∧ 0 ∈ p.drop 4
  fileData : packetId p = fileDataChunk → 13 ≤ p.length

/-- What `OnRecvPacket` reads in the call `c`. -/
def readsOf (g : GameSession) (c : RecvCall) (env : GameSurroundings) : List ReadRange :=
  (g.onRecvPacket c.buffer env).2.2

/-- A packet that is a header long has the id that the handlers read. -/
theorem packetId_packet {c : RecvCall} (h4 : 4 ≤ c.len) : packetId c.packet = packetId c.buffer :=
  readLe_take h4

/-- The reads of `FilePacketSession` are inside exactly if a request or a chunk fits. -/
theorem filePacketSession_reads_inside {c : RecvCall} (hc : c.Framed) (h4 : 4 ≤ c.len) :
    ReadsInside (FilePacketSession.reads c.buffer) c.len ↔
      (packetId c.buffer = fileTransferRequest → 276 ≤ c.len ∧ 0 ∈ c.packet.drop 4) ∧
        (packetId c.buffer = fileDataChunk → 13 ≤ c.len) := by
  have hstr := ReadRange.cString_inside h4 hc.inside
  unfold FilePacketSession.reads
  by_cases hr : packetId c.buffer = fileTransferRequest
  · have hd : fileTransferRequest ≠ fileDataChunk := by decide
    rw [if_pos hr, hr]
    simp only [hd, readsInside_append, readsInside_cons, readsInside_nil, hstr, forall_true_left,
      false_implies, and_true]
    constructor
    · rintro ⟨-, hs, -, -, -, h8, h12⟩
      exact ⟨h12, hs⟩
    · rintro ⟨h12, hs⟩
      exact ⟨⟨h4, by omega⟩, hs, hs, hs, hs, by omega, h12⟩
  · rw [if_neg hr]
    by_cases hd : packetId c.buffer = fileDataChunk
    · have hne : fileDataChunk ≠ fileTransferRequest := by decide
      rw [if_pos hd, hd]
      simp only [hne, readsInside_append, readsInside_cons, readsInside_nil, false_implies,
        forall_true_left, true_and, and_true]
      constructor
      · rintro ⟨-, -, -, h13⟩
        exact h13
      · intro h13
        exact ⟨⟨h4, by omega⟩, by omega, by omega, h13⟩
    · rw [if_neg hd]
      simp only [hr, hd, readsInside_append, readsInside_cons, readsInside_nil, false_implies,
        and_true, iff_true]
      exact ⟨h4, by omega⟩

theorem headerReads_inside (active : Bool) (id len : Nat) :
    ReadsInside (headerReads active id) len ↔ 4 ≤ len := by
  unfold headerReads
  split
  · simp only [readsInside_cons, readsInside_nil, and_true]
    omega
  · simp only [readsInside_cons, readsInside_nil, and_true]

/-- The memcpy of the echo stays inside a packet that has a header. -/
theorem echoSize_of_framed {c : RecvCall} (hc : c.Framed) (h4 : 4 ≤ c.len) :
    echoSize c.buffer = c.len - 4 := by
  have hlt := PacketHeader.size_lt c.buffer
  unfold echoSize u64 sizeofPacketHeader
  rw [hc.size] at hlt ⊢
  omega

/-- What a packet must hold, in terms of the call. -/
theorem packetFits_iff {active : Bool} {c : RecvCall} (hc : c.Framed) :
    PacketFits active c.packet ↔ 4 ≤ c.len ∧
      (packetId c.buffer = pktCChat → 0 ∈ c.packet.drop 4) ∧
      (packetId c.buffer = pktCStressStart → 16 ≤ c.len) ∧
      (packetId c.buffer = pktCStressData → active = true → 12 ≤ c.len) ∧
      (packetId c.buffer = fileTransferRequest → 276 ≤ c.len ∧ 0 ∈ c.packet.drop 4) ∧
      (packetId c.buffer = fileDataChunk → 13 ≤ c.len) := by
  rw [← hc.length_packet]
  constructor
  · intro h
    have hid := packetId_packet (hc.length_packet ▸ h.header)
    rw [← hid]
    exact ⟨h.header, h.chat, h.stressStart, h.stressData, h.fileRequest, h.fileData⟩
  · rintro ⟨h4, h⟩
    have hid := packetId_packet (hc.length_packet ▸ h4)
    rw [← hid] at h
    obtain ⟨hchat, hstart, hdata, hrequest, hchunk⟩ := h
    exact ⟨h4, hchat, hstart, hdata, hrequest, hchunk⟩

/-- **One call reads inside its packet** exactly if the packet fits its id. -/
theorem readsOf_inside (g : GameSession) {c : RecvCall} (hc : c.Framed) (env : GameSurroundings) :
    ReadsInside (g.readsOf c env) c.len ↔
      PacketFits g.stressTest.stressTestActive c.packet := by
  rw [packetFits_iff hc]
  unfold readsOf onRecvPacket
  dsimp only
  by_cases hchat : packetId c.buffer = pktCChat
  · rw [if_pos hchat, hchat]
    simp only [readsInside_append, readsInside_cons, readsInside_nil, headerReads_inside, and_true]
    refine and_congr_right fun h4 => ?_
    have hstr : _ ↔ 0 ∈ c.packet.drop 4 := ReadRange.cString_inside h4 hc.inside
    simp [pktCChat, pktCStressStart, pktCStressData, fileTransferRequest, fileDataChunk, hstr]
  rw [if_neg hchat]
  by_cases hstart : packetId c.buffer = pktCStressStart
  · rw [if_pos hstart, hstart]
    simp only [readsInside_append, readsInside_cons, readsInside_nil, headerReads_inside, and_true]
    refine and_congr_right fun h4 => ?_
    simp [pktCChat, pktCStressStart, pktCStressData, fileTransferRequest, fileDataChunk]
    omega
  rw [if_neg hstart]
  by_cases hdata : packetId c.buffer = pktCStressData
  · rw [if_pos hdata, hdata]
    simp only [pktCChat, pktCStressStart, pktCStressData, fileTransferRequest, fileDataChunk,
      Nat.reduceEqDiff, false_implies, forall_true_left, true_and, and_true]
    cases g.stressTest.stressTestActive with
    | false => simp [headerReads_inside]
    | true =>
        simp only [Bool.not_true, Bool.false_eq_true, if_false, forall_true_left,
          readsInside_append, readsInside_cons, headerReads_inside]
        have hecho := echoSize_of_framed hc
        split
        · simp only [readsInside_nil, and_true]
          omega
        · simp only [readsInside_cons, readsInside_nil, and_true]
          omega
  rw [if_neg hdata]
  by_cases hend : packetId c.buffer = pktCStressEnd
  · rw [if_pos hend, hend]
    simp only [pktCChat, pktCStressStart, pktCStressData, fileTransferRequest, fileDataChunk,
      pktCStressEnd, Nat.reduceEqDiff, false_implies, and_true]
    split
    · exact headerReads_inside _ _ _
    · exact headerReads_inside _ _ _
  rw [if_neg hend]
  simp only [hchat, hstart, hdata, false_implies, true_and]
  split
  · rw [readsInside_append, headerReads_inside]
    exact and_congr_right fun h4 => filePacketSession_reads_inside hc h4
  · rename_i hfile
    rw [headerReads_inside]
    unfold isFileTransferPacket at hfile
    simp only [Bool.or_eq_true, decide_eq_true_eq, not_or] at hfile
    simp [hfile]

/-! ## 4. Over a stream -/

/-- The session after the call `c`. -/
def afterCall (g : GameSession) (c : RecvCall) (env : GameSurroundings) : GameSession :=
  ((g.before env).onRecvPacket c.buffer env).1

/-- **The handlers stay inside the packets** of these calls: each packet has a header, and all that
    its call reads is of it. -/
def InPackets : GameSession → (Nat → GameSurroundings) → List RecvCall → Prop
  | _, _, [] => True
  | g, env, c :: cs =>
      4 ≤ c.len ∧ ReadsInside ((g.before (env 0)).readsOf c (env 0)) c.len ∧
        (g.afterCall c (env 0)).InPackets (fun n => env (n + 1)) cs

/-- Whether a stress test is active after the packet `p`. -/
def activeAfter (active : Bool) (p : List UInt8) : Bool :=
  if packetId p = pktCStressStart then true
  else if packetId p = pktCStressEnd then false
  else active

/-- Each packet fits its id. -/
def PacketsFit : Bool → (Nat → GameSurroundings) → List (List UInt8) → Prop
  | _, _, [] => True
  | active, env, p :: ps =>
      let active := active && !(env 0).disconnected
      PacketFits active p ∧ PacketsFit (activeAfter active p) (fun n => env (n + 1)) ps

theorem before_active (g : GameSession) (env : GameSurroundings) :
    (g.before env).stressTest.stressTestActive =
      (g.stressTest.stressTestActive && !env.disconnected) := by
  unfold before onDisconnected
  cases env.disconnected with
  | true => exact (Bool.and_false _).symm
  | false => exact (Bool.and_true _).symm

/-- **A call starts or ends the stress test** as its packet says. -/
theorem onRecvPacket_active (g : GameSession) (buffer : List UInt8) (env : GameSurroundings) :
    (g.onRecvPacket buffer env).1.stressTest.stressTestActive =
      activeAfter g.stressTest.stressTestActive buffer := by
  unfold onRecvPacket activeAfter
  dsimp only
  by_cases hchat : packetId buffer = pktCChat
  · rw [if_pos hchat, hchat]
    rfl
  rw [if_neg hchat]
  by_cases hstart : packetId buffer = pktCStressStart
  · rw [if_pos hstart, if_pos hstart]
    rfl
  rw [if_neg hstart, if_neg hstart]
  by_cases hdata : packetId buffer = pktCStressData
  · have hend : packetId buffer ≠ pktCStressEnd := by
      rw [hdata]
      decide
    rw [if_pos hdata, if_neg hend]
    unfold onStress StressServer.onRecvPacket
    cases hactive : g.stressTest.stressTestActive with
    | false => exact hactive
    | true => rfl
  rw [if_neg hdata]
  by_cases hend : packetId buffer = pktCStressEnd
  · rw [if_pos hend, if_pos hend]
    unfold onStress StressServer.onRecvPacket
    cases hactive : g.stressTest.stressTestActive with
    | false => exact hactive
    | true => rfl
  rw [if_neg hend, if_neg hend]
  split
  · rfl
  · rfl

/-- The calls read inside their packets exactly if the packets fit. -/
theorem inPackets_iff {cs : List RecvCall} : ∀ (g : GameSession) (env : Nat → GameSurroundings),
    (∀ c ∈ cs, c.Framed) →
    (g.InPackets env cs ↔
      PacketsFit g.stressTest.stressTestActive env (cs.map RecvCall.packet)) := by
  induction cs with
  | nil => exact fun _ _ _ => Iff.rfl
  | cons c cs ih =>
      intro g env hcs
      obtain ⟨hc, hcs⟩ := List.forall_mem_cons.mp hcs
      rw [InPackets, List.map_cons, PacketsFit, readsOf_inside _ hc, ih _ _ hcs, before_active]
      unfold afterCall
      rw [onRecvPacket_active, before_active]
      constructor
      · rintro ⟨h4, hfits, hrest⟩
        unfold activeAfter at hrest ⊢
        rw [packetId_packet h4]
        exact ⟨hfits, hrest⟩
      · rintro ⟨hfits, hrest⟩
        have h4 : 4 ≤ c.len := hc.length_packet ▸ hfits.header
        unfold activeAfter at hrest ⊢
        rw [packetId_packet h4] at hrest
        exact ⟨h4, hfits, hrest⟩

/-- **When the handlers stay inside the packets.** Whatever the peer sends and however it is cut
    into reads: of the first `N` packets that are handled, for every `N`, all reads are inside
    exactly if each of these first `N` frames of the stream fits its id. -/
theorem packet_reads_law (g : GameSession) (env : Nat → GameSurroundings) (cs : List (List UInt8))
    (hfit : RecvSession.connected₀.ReadsFit cs) (N : Nat) :
    g.InPackets env (RecvSession.connected₀.handed cs N) ↔
      PacketsFit g.stressTest.stressTestActive env (packetFramer.firstFrames N cs.flatten) := by
  obtain ⟨hpackets, hframed⟩ := RecvSession.handed_packets RecvSession.recvInv_connected₀ hfit N
  have hnil : RecvSession.connected₀.recvBuffer.unread = [] := RecvBuffer.unread_new _
  rw [hnil, List.nil_append] at hpackets
  rw [inPackets_iff g env hframed, hpackets]

/-- A session without a stress test that receives files into `d`. -/
def new : GameSession where
  stressTest := ⟨false, startData [], ∅, 0⟩
  files := ⟨.empty, .new, Path.ofString "d"⟩

/-- A chat message in two reads is read inside; one without a NUL is not. -/
theorem packet_reads_law_chat :
    new.InPackets (fun _ => ⟨false, false, .none, .none, 0⟩)
        (RecvSession.connected₀.handed [[6, 0, 1], [0, 0x61, 0]] 1) ∧
      ¬ new.InPackets (fun _ => ⟨false, false, .none, .none, 0⟩)
        (RecvSession.connected₀.handed [[5, 0, 1, 0, 0x61]] 1) := by
  have hp : packetFramer.Parse [6, 0, 1, 0, 0x61, 0] [[6, 0, 1, 0, 0x61, 0]] [] :=
    .take (n := 6) (by decide) (by decide) (.stop (by decide))
  have hnil : RecvSession.connected₀.recvBuffer.unread = [] := RecvBuffer.unread_new _
  have hfit₁ : RecvSession.connected₀.ReadsFit [[6, 0, 1], [0, 0x61, 0]] :=
    RecvSession.readsFit_of_le RecvSession.recvInv_connected₀ (by rw [hnil]; exact hp.positive)
      (by decide)
  have hfit₂ : RecvSession.connected₀.ReadsFit [[5, 0, 1, 0, 0x61]] :=
    ⟨by decide, by decide, fun _ _ => trivial⟩
  constructor
  · refine (packet_reads_law new _ _ hfit₁ 1).mpr ⟨?_, trivial⟩
    exact ⟨by decide, by decide, by decide, by decide, by decide, by decide⟩
  · intro h
    obtain ⟨hfits, -⟩ := (packet_reads_law new _ _ hfit₂ 1).mp h
    exact absurd (hfits.chat (by decide)) (by decide)

/-- A chat packet of five bytes has no NUL: its text is read to beyond the packet. And a header
    that says size 0 is handed over as a packet of no bytes. -/
theorem chat_read_beyond_packet :
    (∃ c, RecvSession.connected₀.handed [[5, 0, 1, 0, 0x61]] 1 = [c] ∧
      c.packet = [5, 0, 1, 0, 0x61] ∧
      ¬ ReadsInside (new.readsOf c ⟨false, false, .none, .none, 0⟩) c.len) ∧
    ∃ c, RecvSession.connected₀.handed [[0, 0, 0, 0]] 1 = [c] ∧ c.len = 0 := by
  constructor
  · obtain ⟨c, hc, hpacket, hframed⟩ := RecvSession.handed_one_read [5, 0, 1, 0, 0x61]
      [5, 0, 1, 0, 0x61] (by decide) (by decide) (by decide)
    refine ⟨c, hc, hpacket, fun h => ?_⟩
    have hfits := (readsOf_inside new hframed _).mp h
    rw [hpacket] at hfits
    exact absurd (hfits.chat (by decide)) (by decide)
  · obtain ⟨c, hc, hpacket, hframed⟩ := RecvSession.handed_one_read [0, 0, 0, 0] []
      (by decide) (by decide) (by decide)
    exact ⟨c, hc, hframed.length_packet ▸ congrArg List.length hpacket⟩

end GameSession

end ServerCore
