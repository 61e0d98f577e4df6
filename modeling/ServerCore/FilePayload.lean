/-
  File:      ServerCore/FilePayload.lean
  Subject:   Where the bytes that a FileDataChunk packet writes come from.

  OnRecv frames by `header.size`, HandleFileChunk passes a pointer behind the header, and
  ProcessFileChunk writes `chunkSize` bytes from there: nothing compares the two lengths. What is
  written is the data of the packet exactly where they agree (`file_data_law`); a longer
  `chunkSize` reads on in the receive buffer, and behind it.
-/
import ServerCore.FileWrite
import ServerCore.Handover

namespace ServerCore

namespace FilePacketSession

/-- The chunk as `HandleFileChunk` reads it; `beyond` is the memory behind the receive buffer. -/
def chunkOf (c : RecvCall) (beyond : List UInt8) : FileChunk := .read (c.buffer ++ beyond)

/-- The write to a file that the call leads to. -/
def writeOf (s : FilePacketSession) (c : RecvCall) (beyond : List UInt8) (env : Surroundings) :
    Option FileWrite :=
  chunkWrite s.fs s.fileTransferManager (chunkOf c beyond) env.time env.chunk

/-- **File data comes from its own packet**: what is written are the bytes of the packet behind its
    header, all of them, and the packet holds as many as it says. -/
def WritesOwnData (s : FilePacketSession) (c : RecvCall) (beyond : List UInt8)
    (env : Surroundings) : Prop :=
  ∀ w, s.writeOf c beyond env = some w →
    w.bytes = c.packet.drop sizeofFileChunk ∧
      sizeofFileChunk + (chunkOf c beyond).chunkSize ≤ PacketHeader.size c.buffer

/-- A write can be made for the chunk. -/
def CanWriteFor (s : FilePacketSession) (c : RecvCall) (beyond : List UInt8)
    (env : Surroundings) : Prop :=
  ∃ key context, s.fileTransferManager.transfers.rbegin? = some (key, context) ∧
    CanWrite s.fs context (chunkOf c beyond) env.chunk

/-- What a write takes from the memory. -/
theorem bytes_of_writeOf {s : FilePacketSession} {c : RecvCall} {beyond : List UInt8}
    {env : Surroundings} {w : FileWrite} (h : s.writeOf c beyond env = some w) :
    w.bytes =
      ((c.buffer ++ beyond).drop sizeofFileChunk).take (chunkOf c beyond).chunkSize := by
  obtain ⟨key, file, fs', context, -, -, rfl⟩ := chunkWrite_eq_some.mp h
  rfl

/-- The packet behind its header, as the memory from there on. -/
theorem drop_packet {c : RecvCall} (hc : c.Framed) (beyond : List UInt8) (n : Nat) :
    c.packet.drop n = ((c.buffer ++ beyond).drop n).take (c.len - n) := by
  rw [← List.drop_take, List.take_append_of_le_length hc.inside]
  rfl

/-- **The data is its own** exactly where the two lengths agree, if there is a write. -/
theorem writesOwnData_iff (s : FilePacketSession) {c : RecvCall} (hc : c.Framed)
    (beyond : List UInt8) (env : Surroundings) :
    s.WritesOwnData c beyond env ↔ (s.CanWriteFor c beyond env →
      sizeofFileChunk + (chunkOf c beyond).chunkSize = PacketHeader.size c.buffer) := by
  constructor
  · intro hown hcan
    obtain ⟨w, hw⟩ := exists_chunkWrite_iff.mpr hcan
    obtain ⟨hbytes, hle⟩ := hown w hw
    have hlen := congrArg List.length ((bytes_of_writeOf hw).symm.trans hbytes)
    have hinside := hc.inside
    rw [hc.size] at hle ⊢
    rw [drop_packet hc beyond] at hlen
    simp only [List.length_take, List.length_drop, List.length_append] at hlen
    omega
  · intro hsize w hw
    have hlen := hsize (exists_chunkWrite_iff.mp ⟨w, hw⟩)
    refine ⟨?_, Nat.le_of_eq hlen⟩
    rw [hc.size] at hlen
    rw [bytes_of_writeOf hw, drop_packet hc beyond, ← hlen, Nat.add_sub_cancel_left]

/-- The handler stores what is written, unless the device fails. -/
theorem files_onRecvPacket (s : FilePacketSession) {c : RecvCall} (hc : c.Framed)
    (hid : packetId c.buffer = fileDataChunk) {beyond : List UInt8} {env : Surroundings}
    {w : FileWrite} (h : s.writeOf c beyond env = some w) (hwrite : env.chunk.write = none) :
    ∃ content, (s.onRecvPacket (c.buffer ++ beyond) env).fs.files w.path = some content ∧
      Seg.slice content w.offset w.bytes.length = w.bytes := by
  have hid' : packetId (c.buffer ++ beyond) = fileDataChunk := by
    have hheader := hc.header
    rw [← hid]
    unfold packetId LittleEndian.readLe Seg.slice
    rw [List.drop_append_of_le_length (by omega), List.take_append_of_le_length
      (by rw [List.length_drop]; omega)]
  rw [s.onRecvPacket_chunk env hid']
  exact files_of_chunkWrite h hwrite

/-- **When file data comes from its own packet.** Whatever the peer sends and however it is cut
    into reads: for each FileDataChunk packet that is handed over, in whatever state the session
    and its files are, the bytes written are those of the packet behind its header exactly where
    the size in the packet header is that of the chunk header and the data; unless nothing can be
    written at all. And what is written is what the file holds. -/
theorem file_data_law (cs : List (List UInt8)) (hfit : RecvSession.connected₀.ReadsFit cs) (N : Nat)
    (c : RecvCall) (hc : c ∈ RecvSession.connected₀.handed cs N)
    (hid : packetId c.buffer = fileDataChunk) (s : FilePacketSession) (beyond : List UInt8)
    (env : Surroundings) :
    (s.WritesOwnData c beyond env ↔ (s.CanWriteFor c beyond env →
      sizeofFileChunk + (chunkOf c beyond).chunkSize = PacketHeader.size c.buffer)) ∧
    ∀ w, s.writeOf c beyond env = some w → env.chunk.write = none →
      ∃ content, (s.onRecvPacket (c.buffer ++ beyond) env).fs.files w.path = some content ∧
        Seg.slice content w.offset w.bytes.length = w.bytes := by
  obtain ⟨-, hframed⟩ := RecvSession.handed_packets RecvSession.recvInv_connected₀ hfit N
  exact ⟨s.writesOwnData_iff (hframed c hc) beyond env,
    fun w hw hwrite => s.files_onRecvPacket (hframed c hc) hid hw hwrite⟩

/-- The chunk packet `p` is handed over, and can be written by a session that receives a file. -/
theorem exists_canWriteFor (p : List UInt8) (h12 : 12 ≤ p.length) (hp : p.length ≤ 655360)
    (hf : packetFramer.firstFrames 1 p = [p]) (hid : packetId p = fileDataChunk)
    (hchunk : LittleEndian.readLe p 4 4 = 0) (beyond : List UInt8) :
    ∃ request fs m c, startFileReceive .empty .new [0x2E] request .none = (true, fs, m) ∧
      RecvSession.connected₀.handed [p] 1 = [c] ∧ c.Framed ∧ c.packet = p ∧
      packetId c.buffer = fileDataChunk ∧
      (chunkOf c beyond).chunkSize = LittleEndian.readLe p 8 4 ∧
      CanWriteFor ⟨fs, m, [0x2E]⟩ c beyond Surroundings.calm := by
  obtain ⟨request, fs, context, -, hstart, hfile, hparent, hsize, -⟩ :=
    exists_startFileReceive (n := 2) (by decide) (by decide)
  obtain ⟨c, hc, hpacket, hframed⟩ := RecvSession.handed_one_read _ _ (by omega) hp hf
  have hlen : c.len = p.length := by rw [← hframed.length_packet, hpacket]
  have hmem : (c.buffer ++ beyond).take c.len = p := by
    rw [List.take_append_of_le_length hframed.inside]
    exact hpacket
  have hchunkId : (chunkOf c beyond).chunkId = 0 := by
    rw [← hchunk, ← hmem, LittleEndian.readLe_take (by omega)]
    rfl
  refine ⟨request, fs, _, c, hstart, hc, hframed, hpacket, ?_, ?_, 1, context, rfl, ?_⟩
  · rw [← hid, ← hpacket]
    exact (LittleEndian.readLe_take (by omega)).symm
  · rw [← hmem, LittleEndian.readLe_take (by omega)]
    rfl
  · refine canWrite_none hparent hfile (Nat.le_of_eq (by rw [hsize, List.length_replicate])) ?_
    unfold chunkOffset u64
    rw [hchunkId]
    omega

/-- A chunk packet of two bytes writes its own data. -/
theorem file_data_law_two_bytes :
    ∃ request fs m c w, startFileReceive .empty .new [0x2E] request .none = (true, fs, m) ∧
      RecvSession.connected₀.handed [[18, 0, 102, 0, 0, 0, 0, 0, 2, 0, 0, 0, 1, 0, 0, 0, 7, 8]] 1 =
        [c] ∧
      writeOf ⟨fs, m, [0x2E]⟩ c [] Surroundings.calm = some w ∧
      WritesOwnData ⟨fs, m, [0x2E]⟩ c [] Surroundings.calm := by
  obtain ⟨request, fs, m, c, hstart, hc, hframed, hpacket, hid, hsize, hcan⟩ :=
    exists_canWriteFor [18, 0, 102, 0, 0, 0, 0, 0, 2, 0, 0, 0, 1, 0, 0, 0, 7, 8] (by decide)
      (by decide) (by decide) (by decide) (by decide) []
  obtain ⟨w, hw⟩ := exists_chunkWrite_iff.mpr hcan
  refine ⟨request, fs, m, c, w, hstart, hc, hw, ?_⟩
  refine ((file_data_law [[18, 0, 102, 0, 0, 0, 0, 0, 2, 0, 0, 0, 1, 0, 0, 0, 7, 8]]
    ⟨by decide, by decide, fun _ _ => trivial⟩ 1 c (hc ▸ List.mem_singleton_self c) hid _ _
    _).1).mpr fun _ => ?_
  rw [hsize, hframed.size, ← hframed.length_packet, hpacket]
  decide

/-- **A chunk packet with one byte of data that says it has two**: there is a write, and it is not
    of the packet's own data. -/
theorem chunk_writes_beyond_packet :
    ∃ request fs m c, startFileReceive .empty .new [0x2E] request .none = (true, fs, m) ∧
      RecvSession.connected₀.handed [[17, 0, 102, 0, 0, 0, 0, 0, 2, 0, 0, 0, 1, 0, 0, 0, 7]] 1 =
        [c] ∧
      (∃ w, writeOf ⟨fs, m, [0x2E]⟩ c [] Surroundings.calm = some w) ∧
      ¬ WritesOwnData ⟨fs, m, [0x2E]⟩ c [] Surroundings.calm := by
  obtain ⟨request, fs, m, c, hstart, hc, hframed, hpacket, -, hsize, hcan⟩ :=
    exists_canWriteFor [17, 0, 102, 0, 0, 0, 0, 0, 2, 0, 0, 0, 1, 0, 0, 0, 7] (by decide)
      (by decide) (by decide) (by decide) (by decide) []
  refine ⟨request, fs, m, c, hstart, hc, exists_chunkWrite_iff.mpr hcan, fun hown => ?_⟩
  have hlen := (writesOwnData_iff _ hframed _ _).mp hown hcan
  rw [hsize, hframed.size, ← hframed.length_packet, hpacket] at hlen
  exact absurd hlen (by decide)

end FilePacketSession

end ServerCore
