/-
  File:      ServerCore/StressPackets.lean
  Subject:   The packets of the stress test, byte by byte (client.cpp, server.cpp).

  A packet is built in its reservation: the header, then the fields of its structure, over whatever
  was there before. `clientPacketOf` and `serverPacketOf` are what the other side takes a packet
  for.

  * `packetOf`: a packet with a header; it carries its own length, its id and its fields.
  * `clientPacketOf_bytesOf`, `serverPacketOf_bytesOf`: what one side builds, the other side takes
    for what it was built of, whatever the memory, the clock and the statistics.
-/
import ServerCore.CompletionNotice
import ServerCore.Lib.Layout
import ServerCore.StressEcho

namespace ServerCore

open Seg LittleEndian Layout

/-! ## 1. A packet with a header -/

/-- A packet of `size` bytes: `header->size`, `header->id`, then its fields. -/
def packetOf (mem : Memory) (size id : Nat) (fields : List (Stored UInt8)) : List UInt8 :=
  storeAll (mem.reserve size) (.le 0 2 size :: .le 2 2 id :: fields)

/-- **The fields lie behind the header**, inside the packet and apart from one another. -/
structure BehindHeader (size : Nat) (fields : List (Stored UInt8)) : Prop where
  disjoint : LaidOut size fields
  behind : ∀ f ∈ fields, sizeofPacketHeader ≤ f.offset

section PacketOf

variable {mem : Memory} {size id : Nat} {fields : List (Stored UInt8)}

theorem BehindHeader.disjoint_packet (mem : Memory) (id : Nat) (h : BehindHeader size fields)
    (hsize : 4 ≤ size) :
    LaidOut (mem.reserve size).length (.le 0 2 size :: .le 2 2 id :: fields) := by
  have hbehind : ∀ f ∈ fields, ∀ n ≤ 4, n ≤ f.offset := fun f hf n hn =>
    Nat.le_trans hn (h.behind f hf)
  rw [Memory.length_reserve]
  refine ⟨?_, ?_⟩
  · simp only [List.forall_mem_cons, Stored.stop_le]
    exact ⟨by omega, by omega, h.disjoint.inside⟩
  · refine List.pairwise_cons.mpr ⟨?_, List.pairwise_cons.mpr ⟨?_, h.disjoint.apart⟩⟩
    · refine List.forall_mem_cons.mpr ⟨.inl ?_, fun f hf => .inl ?_⟩
      · rw [Stored.stop_le, Stored.offset_le]
      · rw [Stored.stop_le]
        exact hbehind f hf 2 (by decide)
    · intro f hf
      refine .inl ?_
      rw [Stored.stop_le]
      exact hbehind f hf 4 (by decide)

theorem length_packetOf (h : BehindHeader size fields) (hsize : 4 ≤ size) :
    (packetOf mem size id fields).length = size := by
  rw [packetOf, length_storeAll (h.disjoint_packet mem id hsize).inside, Memory.length_reserve]

/-- **A packet carries its own length.** -/
theorem wellFormed_packetOf (h : BehindHeader size fields) (hsize : 4 ≤ size)
    (hlt : size < 2 ^ 16) : WellFormedPacket (packetOf mem size id fields) := by
  have hlen : (packetOf mem size id fields).length = size := length_packetOf h hsize
  refine ⟨by rw [hlen]; exact hsize, ?_⟩
  have hread := readLe_storeAll (h.disjoint_packet mem id hsize)
    (List.mem_cons_self ..)
  rw [hlen, PacketHeader.size]
  exact hread.trans (Nat.mod_eq_of_lt hlt)

/-- **And its id.** -/
theorem packetId_packetOf (h : BehindHeader size fields) (hsize : 4 ≤ size) (hid : id < 2 ^ 16) :
    packetId (packetOf mem size id fields) = id := by
  have hread := readLe_storeAll (h.disjoint_packet mem id hsize)
    (List.mem_cons_of_mem _ (List.mem_cons_self ..))
  exact hread.trans (Nat.mod_eq_of_lt hid)

/-- **And its fields.** -/
theorem readLe_packetOf (h : BehindHeader size fields) (hsize : 4 ≤ size) {offset w n : Nat}
    (hf : Stored.le offset w n ∈ fields) (hn : n < 256 ^ w) :
    readLe (packetOf mem size id fields) offset w = n := by
  have hread := readLe_storeAll (h.disjoint_packet mem id hsize)
    (List.mem_cons_of_mem _ (List.mem_cons_of_mem _ hf))
  exact hread.trans (Nat.mod_eq_of_lt hn)

end PacketOf

/-! ## 2. The packets of the client -/

/-- `sizeof(StressTestStartData)` -/
def sizeofStressTestStartData : Nat := 12

/-- `sizeof(StressTestData)` -/
def sizeofStressTestData : Nat := 4008

/-- What surrounds a send: what the reservation held, and the clock as `uint32_t` milliseconds. -/
structure SendEnv where
  mem : Memory
  now : Nat

/-- The loop `for (i = 0; i < messageSize && i < 4000; ++i) data[i] = (char)((i + seq) % 256);` -/
def stressFilling (messageSize sequenceNumber : Nat) : List UInt8 :=
  (List.range (min messageSize 4000)).map fun i => UInt8.ofNat (u32 (i + sequenceNumber) % 256)

/-- The fields of `PKT_C_STRESS_START`. -/
def startFields (startData : StressTestStartData) : List (Stored UInt8) :=
  [.le 4 4 startData.messageCount, .le 8 4 startData.messageSize, .le 12 4 startData.intervalMs]

/-- The fields of `PKT_C_STRESS_DATA`. -/
def dataFields (messageSize now sequenceNumber : Nat) : List (Stored UInt8) :=
  [.le 4 4 sequenceNumber, .le 8 4 now, ⟨12, stressFilling messageSize sequenceNumber⟩]

/-- The bytes of what the client sends. -/
def StressClient.bytesOf (c : StressClient) (env : SendEnv) : ClientPacket → List UInt8
  | .stressStart startData =>
      packetOf env.mem (sizeofPacketHeader + sizeofStressTestStartData) pktCStressStart
        (startFields startData)
  | .stressData sequenceNumber =>
      packetOf env.mem (sizeofPacketHeader + sizeofStressTestData) pktCStressData
        (dataFields c.stressTestConfig.messageSize env.now sequenceNumber)
  | .stressEnd => packetOf env.mem sizeofPacketHeader pktCStressEnd []

/-- What `GameSession::OnRecvPacket` takes a packet for; `none`: for none of the stress test. -/
def clientPacketOf (p : List UInt8) : Option ClientPacket :=
  if packetId p = pktCStressStart then some (.stressStart (GameSession.startData p))
  else if packetId p = pktCStressData then some (.stressData (readLe p 4 4))
  else if packetId p = pktCStressEnd then some .stressEnd
  else none

/-- Its numbers are `uint32_t`. -/
def ClientPacket.InRange : ClientPacket → Prop
  | .stressData sequenceNumber => sequenceNumber < 2 ^ 32
  | .stressStart _ | .stressEnd => True

theorem behindHeader_startFields (d : StressTestStartData) : BehindHeader 16 (startFields d) := by
  refine ⟨⟨?_, ?_⟩, ?_⟩ <;> simp [startFields, Stored.Apart, sizeofPacketHeader]

theorem behindHeader_dataFields (messageSize now sequenceNumber : Nat) :
    BehindHeader 4012 (dataFields messageSize now sequenceNumber) := by
  have hfill : (⟨12, stressFilling messageSize sequenceNumber⟩ : Stored UInt8).stop ≤ 4012 := by
    unfold Stored.stop stressFilling
    rw [List.length_map, List.length_range]
    dsimp only
    omega
  refine ⟨⟨?_, ?_⟩, ?_⟩
  · simpa [dataFields] using hfill
  · simp [dataFields, Stored.Apart]
  · simp [dataFields, sizeofPacketHeader]

theorem behindHeader_nil : BehindHeader sizeofPacketHeader [] :=
  ⟨⟨List.forall_mem_nil _, .nil⟩, List.forall_mem_nil _⟩

/-- **The server takes a packet of the client for what it is.** -/
theorem clientPacketOf_bytesOf (c : StressClient) (env : SendEnv) {p : ClientPacket}
    (hp : p.InRange) : clientPacketOf (c.bytesOf env p) = some p := by
  cases p with
  | stressStart d =>
      have h := behindHeader_startFields d
      have hread : ∀ {offset n}, Stored.le offset 4 n ∈ startFields d → n < 2 ^ 32 →
          readLe (c.bytesOf env (.stressStart d)) offset 4 = n := fun hf hn =>
        readLe_packetOf h (by decide) hf hn
      have hid : packetId (c.bytesOf env (.stressStart d)) = pktCStressStart :=
        packetId_packetOf h (by decide) (by decide)
      rw [clientPacketOf, if_pos hid]
      unfold GameSession.startData
      congr 3
      · exact hread (by simp [startFields]) d.messageCount_lt
      · exact hread (by simp [startFields]) d.messageSize_lt
      · exact hread (by simp [startFields]) d.intervalMs_lt
  | stressData n =>
      have h := behindHeader_dataFields c.stressTestConfig.messageSize env.now n
      have hid : packetId (c.bytesOf env (.stressData n)) = pktCStressData :=
        packetId_packetOf h (by decide) (by decide)
      have hread : readLe (c.bytesOf env (.stressData n)) 4 4 = n :=
        readLe_packetOf h (by decide) (List.mem_cons_self ..) hp
      rw [clientPacketOf, hid, hread]
      rfl
  | stressEnd =>
      have hid : packetId (c.bytesOf env .stressEnd) = pktCStressEnd :=
        packetId_packetOf behindHeader_nil (by decide) (by decide)
      rw [clientPacketOf, hid]
      rfl

/-- **It is well formed.** -/
theorem wellFormed_bytesOf (c : StressClient) (env : SendEnv) (p : ClientPacket) :
    WellFormedPacket (c.bytesOf env p) := by
  cases p with
  | stressStart d => exact wellFormed_packetOf (behindHeader_startFields d) (by decide) (by decide)
  | stressData n =>
      exact wellFormed_packetOf (behindHeader_dataFields _ _ n) (by decide) (by decide)
  | stressEnd => exact wellFormed_packetOf behindHeader_nil (by decide) (by decide)

/-- A packet of the stress test fits its id where its length does. -/
theorem GameSession.packetFits_of_stress {active : Bool} {p : List UInt8}
    (h : (packetId p = pktCStressStart ∧ 16 ≤ p.length) ∨
      (packetId p = pktCStressData ∧ 12 ≤ p.length) ∨
      (packetId p = pktCStressEnd ∧ 4 ≤ p.length)) : PacketFits active p := by
  have hne : packetId p ≠ pktCChat ∧ packetId p ≠ fileTransferRequest ∧
      packetId p ≠ fileDataChunk := by
    rcases h with ⟨hid, -⟩ | ⟨hid, -⟩ | ⟨hid, -⟩ <;> rw [hid] <;> decide
  obtain ⟨hchat, hrequest, hchunk⟩ := hne
  refine ⟨?_, fun hid => absurd hid hchat, fun hid => ?_, fun hid _ => ?_,
    fun hid => absurd hid hrequest, fun hid => absurd hid hchunk⟩
  · rcases h with ⟨-, h⟩ | ⟨-, h⟩ | ⟨-, h⟩ <;> omega
  · rcases h with ⟨-, h⟩ | ⟨h, -⟩ | ⟨h, -⟩
    · exact h
    · exact absurd (hid.symm.trans h) (by decide)
    · exact absurd (hid.symm.trans h) (by decide)
  · rcases h with ⟨h, -⟩ | ⟨-, h⟩ | ⟨h, -⟩
    · exact absurd (hid.symm.trans h) (by decide)
    · exact h
    · exact absurd (hid.symm.trans h) (by decide)

/-- **And holds what the server reads of it.** -/
theorem packetFits_bytesOf (c : StressClient) (env : SendEnv) (active : Bool) (p : ClientPacket) :
    GameSession.PacketFits active (c.bytesOf env p) := by
  refine GameSession.packetFits_of_stress ?_
  cases p with
  | stressStart d =>
      have h := behindHeader_startFields d
      exact .inl ⟨packetId_packetOf h (by decide) (by decide),
        Nat.le_of_eq (length_packetOf h (by decide)).symm⟩
  | stressData n =>
      have h := behindHeader_dataFields c.stressTestConfig.messageSize env.now n
      have hlen : (c.bytesOf env (.stressData n)).length = 4012 := length_packetOf h (by decide)
      exact .inr (.inl ⟨packetId_packetOf h (by decide) (by decide), by omega⟩)
  | stressEnd =>
      exact .inr (.inr ⟨packetId_packetOf behindHeader_nil (by decide) (by decide),
        Nat.le_of_eq (length_packetOf behindHeader_nil (by decide)).symm⟩)

/-! ## 3. The packets of the server -/

/-- `PKT_S_STRESS_START` -/
def pktSStressStart : Nat := 4

/-- `PKT_S_STRESS_RESULT` -/
def pktSStressResult : Nat := 8

/-- `sizeof(StressTestResult)` -/
def sizeofStressTestResult : Nat := 28

/-- The fields of `PKT_S_STRESS_RESULT`; `floats` are the bytes of its four `float`s. -/
def resultFields (result : StressTestResult) (floats : Memory) : List (Stored UInt8) :=
  [.le 4 4 result.totalMessages, .le 8 4 result.receivedMessages, .le 12 4 result.lostMessages,
    ⟨16, floats.reserve 16⟩]

/-- The echo of the packet at `buffer`, built in a reservation. -/
def echoPacket (mem : Memory) (buffer : List UInt8) : List UInt8 :=
  (echoStores buffer).foldl (fun bytes w => splice bytes w.offset w.bytes)
    (mem.reserve (PacketHeader.size buffer))

/-- The bytes by which the server replies to the packet at `buffer`. -/
def GameSession.bytesOf (buffer : List UInt8) (mem floats : Memory) : ServerPacket → List UInt8
  | .stressStart => packetOf mem sizeofPacketHeader pktSStressStart []
  | .stressData _ => echoPacket mem buffer
  | .stressResult result =>
      packetOf mem (sizeofPacketHeader + sizeofStressTestResult) pktSStressResult
        (resultFields result floats)

/-- What the client takes a packet for; `none`: for none of the stress test. -/
def serverPacketOf (p : List UInt8) : Option ServerPacket :=
  if packetId p = pktSStressStart then some .stressStart
  else if packetId p = pktSStressData then some (.stressData (readLe p 4 4))
  else if packetId p = pktSStressResult then
    some (.stressResult ⟨readLe p 4 4, readLe p 8 4, readLe p 12 4⟩)
  else none

/-- **The packet answers the call**: the echo is one of the packet of the call, which holds the
    timestamp, and the counts are `uint32_t`. -/
def ServerPacket.Answers (c : RecvCall) : ServerPacket → Prop
  | .stressStart => True
  | .stressData sequenceNumber => 12 ≤ c.len ∧ sequenceNumber = readLe c.buffer 4 4
  | .stressResult result => result.totalMessages < 2 ^ 32 ∧ result.receivedMessages < 2 ^ 32 ∧
      result.lostMessages < 2 ^ 32

/-- **The packet holds what the client reads of it.** -/
structure ServerPacketFits (active : Bool) (p : List UInt8) : Prop where
  header : 4 ≤ p.length
  chat : packetId p = pktSChat → 0 ∈ p.drop 4
  stressData : packetId p = pktSStressData → active = true → 12 ≤ p.length
  stressResult : packetId p = pktSStressResult → 32 ≤ p.length
  fileRequest : packetId p = fileTransferRequest → 276 ≤ p.length ∧ 0 ∈ p.drop 4
  fileData : packetId p = fileDataChunk → 13 ≤ p.length

theorem behindHeader_resultFields (result : StressTestResult) (floats : Memory) :
    BehindHeader 32 (resultFields result floats) := by
  refine ⟨⟨?_, ?_⟩, ?_⟩ <;> simp [resultFields, Stored.Apart, Stored.stop, Stored.le,
    sizeofPacketHeader]

/-- The echo of a packet that holds the timestamp is that packet under its new id. -/
theorem echoPacket_eq (mem : Memory) {c : RecvCall} (hc : c.Framed) (h12 : 12 ≤ c.len) :
    echoPacket mem c.buffer = withId c.packet pktSStressData :=
  foldl_echoStores hc h12 ((Memory.length_reserve mem _).trans hc.size)

/-- **The packet under another id**: only the id is another. -/
theorem withId_spec (p : List UInt8) (id : Nat) (h4 : 4 ≤ p.length) (hid : id < 2 ^ 16) :
    (withId p id).length = p.length ∧ packetId (withId p id) = id ∧
      PacketHeader.size (withId p id) = PacketHeader.size p ∧
      readLe (withId p id) 4 4 = readLe p 4 4 := by
  refine ⟨length_writeLe (by omega), ?_, ?_, ?_⟩
  · exact (readLe_writeLe (by omega)).trans (Nat.mod_eq_of_lt hid)
  · exact readLe_writeLe_of_disjoint (by omega) (by omega)
  · exact readLe_writeLe_of_disjoint (by omega) (by omega)

/-- A packet of the stress test holds what the client reads of it where its length does. -/
theorem serverPacketFits_of_stress {active : Bool} {p : List UInt8}
    (h : (packetId p = pktSStressStart ∧ 4 ≤ p.length) ∨
      (packetId p = pktSStressData ∧ 12 ≤ p.length) ∨
      (packetId p = pktSStressResult ∧ 32 ≤ p.length)) : ServerPacketFits active p := by
  have hne : packetId p ≠ pktSChat ∧ packetId p ≠ fileTransferRequest ∧
      packetId p ≠ fileDataChunk := by
    rcases h with ⟨hid, -⟩ | ⟨hid, -⟩ | ⟨hid, -⟩ <;> rw [hid] <;> decide
  obtain ⟨hchat, hrequest, hchunk⟩ := hne
  refine ⟨?_, fun hid => absurd hid hchat, fun hid _ => ?_, fun hid => ?_,
    fun hid => absurd hid hrequest, fun hid => absurd hid hchunk⟩
  · rcases h with ⟨-, h⟩ | ⟨-, h⟩ | ⟨-, h⟩ <;> omega
  · rcases h with ⟨h, -⟩ | ⟨-, h⟩ | ⟨h, -⟩
    · exact absurd (hid.symm.trans h) (by decide)
    · exact h
    · exact absurd (hid.symm.trans h) (by decide)
  · rcases h with ⟨h, -⟩ | ⟨h, -⟩ | ⟨-, h⟩
    · exact absurd (hid.symm.trans h) (by decide)
    · exact absurd (hid.symm.trans h) (by decide)
    · exact h

section Reply

variable {c : RecvCall} (mem floats : Memory)

/-- **The client takes a reply for what it is.** -/
theorem serverPacketOf_bytesOf (hc : c.Framed) {p : ServerPacket} (hp : p.Answers c) :
    serverPacketOf (GameSession.bytesOf c.buffer mem floats p) = some p := by
  cases p with
  | stressStart =>
      have hid : packetId (GameSession.bytesOf c.buffer mem floats .stressStart) =
          pktSStressStart := packetId_packetOf behindHeader_nil (by decide) (by decide)
      rw [serverPacketOf, if_pos hid]
  | stressData n =>
      obtain ⟨h12, hn⟩ := hp
      have hlen := hc.length_packet
      obtain ⟨-, hid, -, hseq⟩ := withId_spec c.packet pktSStressData (by omega)
        (by decide)
      rw [GameSession.bytesOf, echoPacket_eq mem hc h12, serverPacketOf, hid, hseq]
      have hread : readLe c.packet 4 4 = readLe c.buffer 4 4 := readLe_take (by omega)
      rw [hread, ← hn]
      rfl
  | stressResult result =>
      obtain ⟨htotal, hreceived, hlost⟩ := hp
      have h := behindHeader_resultFields result floats
      have hid : packetId (GameSession.bytesOf c.buffer mem floats (.stressResult result)) =
          pktSStressResult := packetId_packetOf h (by decide) (by decide)
      have hread : ∀ {offset n}, Stored.le offset 4 n ∈ resultFields result floats → n < 2 ^ 32 →
          readLe (GameSession.bytesOf c.buffer mem floats (.stressResult result)) offset 4 = n :=
        fun hf hn => readLe_packetOf h (by decide) hf hn
      rw [serverPacketOf, hid, hread (by simp [resultFields]) htotal,
        hread (by simp [resultFields]) hreceived, hread (by simp [resultFields]) hlost]
      rfl

/-- **It is well formed, and holds what the client reads of it.** -/
theorem serverPacketFits_bytesOf (hc : c.Framed) {p : ServerPacket} (hp : p.Answers c)
    (active : Bool) :
    WellFormedPacket (GameSession.bytesOf c.buffer mem floats p) ∧
      ServerPacketFits active (GameSession.bytesOf c.buffer mem floats p) := by
  cases p with
  | stressStart =>
      exact ⟨wellFormed_packetOf behindHeader_nil (by decide) (by decide),
        serverPacketFits_of_stress (.inl
          ⟨packetId_packetOf behindHeader_nil (by decide) (by decide),
          Nat.le_of_eq (length_packetOf behindHeader_nil (by decide)).symm⟩)⟩
  | stressData n =>
      obtain ⟨h12, -⟩ := hp
      have hpacket := hc.length_packet
      have hsize : PacketHeader.size c.packet = c.len := by
        rw [← hc.size]
        exact readLe_take (by omega)
      obtain ⟨hlen, hid, hsize', -⟩ := withId_spec c.packet pktSStressData
        (by omega) (by decide)
      rw [GameSession.bytesOf, echoPacket_eq mem hc h12]
      exact ⟨⟨by omega, by omega⟩, serverPacketFits_of_stress (.inr (.inl ⟨hid, by omega⟩))⟩
  | stressResult result =>
      have h := behindHeader_resultFields result floats
      exact ⟨wellFormed_packetOf h (by decide) (by decide),
        serverPacketFits_of_stress (.inr (.inr ⟨packetId_packetOf h (by decide) (by decide),
          Nat.le_of_eq (length_packetOf h (by decide)).symm⟩))⟩

end Reply

end ServerCore
