/-
  File:      ServerCore/StressEcho.lean
  Subject:   The echo of a stress packet (GameSession::OnRecvPacket, server.cpp), byte by byte.

  The handler opens as many bytes as the packet has, copies the packet behind a new header and
  then assigns the timestamp, at its place in `StressTestData`. `echoStores` are its stores, by
  offset from `sendBuffer->Buffer()`.

  The reply is built inside its reservation, and is the packet under another id, exactly for the
  packets that reach to the end of the timestamp (`stress_echo_iff`). For these the stores are
  writes of the SendBuffer machine, in any state that `Open` leaves (`echo_run`).
-/
import ServerCore.GameSession
import ServerCore.SendBufferInv

namespace ServerCore

open Seg LittleEndian Trans

/-! ## 1. The stores of the handler -/

/-- A store of `bytes` from `sendBuffer->Buffer() + offset` on. -/
structure ReplyStore where
  offset : Nat
  bytes : List UInt8
  deriving DecidableEq

/-- `PKT_S_STRESS_DATA` -/
def pktSStressData : Nat := 6

/-- The `n` bytes from `buffer + offset` on; past the memory there is, they are taken to be 0. -/
def bytesAt (buffer : List UInt8) (offset n : Nat) : List UInt8 := grow 0 (slice buffer offset n) n

theorem length_bytesAt (buffer : List UInt8) (offset n : Nat) :
    (bytesAt buffer offset n).length = n := by
  unfold bytesAt
  rw [length_grow, length_slice]
  omega

theorem bytesAt_of_le {buffer : List UInt8} {offset n : Nat} (h : offset + n ≤ buffer.length) :
    bytesAt buffer offset n = slice buffer offset n :=
  grow_of_le (Nat.le_of_eq (length_slice_of_le h).symm)

/-- The stores of the echo of the packet at `buffer`, in their order. -/
def echoStores (buffer : List UInt8) : List ReplyStore :=
  [ -- `resHeader->size = header->size; resHeader->id = PKT_S_STRESS_DATA;`
    ⟨0, le 2 (PacketHeader.size buffer)⟩, ⟨2, le 2 pktSStressData⟩,
    -- `memcpy(resData, stressData, header->size - sizeof(PacketHeader));`
    ⟨4, bytesAt buffer 4 (GameSession.echoSize buffer)⟩,
    -- `resData->timestamp = stressData->timestamp;`
    ⟨8, bytesAt buffer 8 4⟩]

/-- The stores by which a `GameSession` replies to the packet at `buffer`. -/
def GameSession.replyStores (g : GameSession) (buffer : List UInt8) : List ReplyStore :=
  if packetId buffer = pktCStressData ∧ g.stressTest.stressTestActive then echoStores buffer else []

/-- The chunk after the stores to a reservation at `ptr`. -/
def SendBufferChunk.storeAll (chunk : SendBufferChunk) (ptr : Nat) :
    List ReplyStore → SendBufferChunk
  | [] => chunk
  | w :: ws => (chunk.store (ptr + w.offset) w.bytes).storeAll ptr ws

/-- The packet under another id. -/
def withId (packet : List UInt8) (id : Nat) : List UInt8 := writeLe packet 2 2 id

/-! ## 2. The echo -/

/-- **The echo is faithful**: of the packet of the call `c`, built in `opened` from `ptr` on. -/
structure EchoFaithful (g : GameSession) (opened : SendBufferChunk) (ptr : Nat) (c : RecvCall) :
    Prop where
  /-- the copy length does not underflow -/
  copy : GameSession.echoSize c.buffer + sizeofPacketHeader = c.len
  /-- every store lies in the reservation -/
  inside : ∀ w ∈ g.replyStores c.buffer, w.offset + w.bytes.length ≤ c.len
  /-- what is closed, `[Buffer(), Buffer() + resHeader->size)`, is the packet under the new id -/
  sent : slice (opened.storeAll ptr (g.replyStores c.buffer)).buffer ptr
      (readLe (opened.storeAll ptr (g.replyStores c.buffer)).buffer ptr 2) =
    withId c.packet pktSStressData

/-- A store inside a reservation is that store to its bytes. -/
theorem slice_store_inside (chunk : SendBufferChunk) {ptr size : Nat} {w : ReplyStore}
    (hroom : ptr + size ≤ SendBufferChunk.chunkSize) (h : w.offset + w.bytes.length ≤ size) :
    slice (chunk.store (ptr + w.offset) w.bytes).buffer ptr size =
      splice (slice chunk.buffer ptr size) w.offset w.bytes := by
  have hlen := chunk.size_buffer
  unfold SendBufferChunk.store
  rw [dif_pos (by omega)]
  exact slice_splice_inside h (by omega)

/-- Stores inside a reservation, one after another. -/
theorem slice_storeAll_inside {ptr size : Nat} (hroom : ptr + size ≤ SendBufferChunk.chunkSize) :
    ∀ (ws : List ReplyStore) (chunk : SendBufferChunk),
      (∀ w ∈ ws, w.offset + w.bytes.length ≤ size) →
      slice (chunk.storeAll ptr ws).buffer ptr size =
        ws.foldl (fun bytes w => splice bytes w.offset w.bytes) (slice chunk.buffer ptr size)
  | [], _, _ => rfl
  | w :: ws, chunk, h => by
      have hw := h w (List.mem_cons_self ..)
      rw [SendBufferChunk.storeAll, slice_storeAll_inside hroom ws _
        fun w' hw' => h w' (List.mem_cons_of_mem _ hw'), slice_store_inside chunk hroom hw]
      rfl

/-- **The stores of the echo, over any bytes**, leave the packet under its new id: each of them is
    a range of it. -/
theorem foldl_echoStores {c : RecvCall} (hc : c.Framed) (h12 : 12 ≤ c.len) {bytes : List UInt8}
    (hbytes : bytes.length = c.len) :
    (echoStores c.buffer).foldl (fun bytes w => splice bytes w.offset w.bytes) bytes =
      withId c.packet pktSStressData := by
  have hinside := hc.inside
  have hpacket := hc.length_packet
  have hlen : (withId c.packet pktSStressData).length = c.len := by
    rw [withId, length_writeLe (by omega), hpacket]
  have hout : ∀ i n, i + n ≤ c.len → (i + n ≤ 2 ∨ 4 ≤ i) →
      slice (withId c.packet pktSStressData) i n = slice c.buffer i n := by
    intro i n hin hapart
    rw [withId, writeLe, slice_splice_of_disjoint (by rw [length_le]; omega)
      (by rw [length_le]; omega), RecvCall.packet, slice_of_take hin]
  have hsize : le 2 (PacketHeader.size c.buffer) =
      slice (withId c.packet pktSStressData) 0 2 := by
    rw [hout 0 2 (by omega) (.inl (by omega))]
    exact le_readLe (by omega)
  have hid : le 2 pktSStressData = slice (withId c.packet pktSStressData) 2 2 :=
    (slice_splice_self (by rw [length_le]; omega)).symm
  have hdata : bytesAt c.buffer 4 (GameSession.echoSize c.buffer) =
      slice (withId c.packet pktSStressData) 4 (c.len - 4) := by
    rw [GameSession.echoSize_of_framed hc (by omega), hout 4 _ (by omega) (.inr (by omega)),
      bytesAt_of_le (by omega)]
  have htime : bytesAt c.buffer 8 4 = slice (withId c.packet pktSStressData) 8 4 := by
    rw [hout 8 4 (by omega) (.inr (by omega)), bytesAt_of_le (by omega)]
  have hnone : AgreesOn (withId c.packet pktSStressData) bytes fun _ => False :=
    ⟨hbytes.trans hlen.symm, fun _ h => h.elim⟩
  unfold echoStores
  rw [hsize, hid, hdata, htime]
  simp only [List.foldl_cons, List.foldl_nil]
  refine ((((hnone.splice_slice (i := 0) (n := 2) (by omega)).splice_slice (i := 2) (n := 2)
    (by omega)).splice_slice (i := 4) (n := c.len - 4) (by omega)).splice_slice (i := 8) (n := 4)
    (by omega)).eq fun j hj => ?_
  omega

/-- A store of the echo ends past the reservation of a packet that does not hold the timestamp. -/
theorem echoStores_inside_iff {c : RecvCall} (hc : c.Framed) :
    (GameSession.echoSize c.buffer + sizeofPacketHeader = c.len ∧
      ∀ w ∈ echoStores c.buffer, w.offset + w.bytes.length ≤ c.len) ↔ 12 ≤ c.len := by
  unfold echoStores
  simp only [List.forall_mem_cons, List.not_mem_nil, false_imp_iff, implies_true, length_le,
    length_bytesAt, and_true]
  constructor
  · rintro ⟨-, -, -, -, h⟩
    exact h
  · intro h
    rw [GameSession.echoSize_of_framed hc (by omega), sizeofPacketHeader]
    omega

section Echo

variable {g : GameSession} {c : RecvCall} {chunk opened : SendBufferChunk} {ptr : Nat}

/-- The reservation lies in its chunk. -/
theorem room_of_open {size : Nat} (hused : chunk.usedSize ≤ SendBufferChunk.chunkSize)
    (hopen : chunk.open? size = some (opened, ptr)) : ptr + size ≤ SendBufferChunk.chunkSize := by
  unfold SendBufferChunk.open? at hopen
  split at hopen
  · cases hopen
  · rename_i hfree
    obtain ⟨-, rfl⟩ := Prod.mk.inj (Option.some.inj hopen)
    rw [SendBufferChunk.freeSize_eq hused] at hfree
    omega

/-- **The echo is faithful exactly for the packets that hold a timestamp**, wherever in a chunk the
    reply is opened. -/
theorem stress_echo_iff (hactive : g.stressTest.stressTestActive = true)
    (hid : packetId c.buffer = pktCStressData) (hc : c.Framed)
    (hused : chunk.usedSize ≤ SendBufferChunk.chunkSize)
    (hopen : chunk.open? c.len = some (opened, ptr)) :
    EchoFaithful g opened ptr c ↔ 12 ≤ c.len := by
  have hstores : g.replyStores c.buffer = echoStores c.buffer := if_pos ⟨hid, hactive⟩
  constructor
  · intro h
    refine (echoStores_inside_iff hc).mp ⟨h.copy, ?_⟩
    rw [← hstores]
    exact h.inside
  · intro h12
    obtain ⟨hcopy, hinside⟩ := (echoStores_inside_iff hc).mpr h12
    have hroom := room_of_open hused hopen
    have hchunk := opened.size_buffer
    have hpacket := hc.length_packet
    have hbuilt := slice_storeAll_inside hroom (echoStores c.buffer) opened hinside
    rw [foldl_echoStores hc h12 (length_slice_of_le (by omega))] at hbuilt
    -- the size is read back from the reply
    have hsize : readLe (opened.storeAll ptr (echoStores c.buffer)).buffer ptr 2 = c.len := by
      have hfield : slice (opened.storeAll ptr (echoStores c.buffer)).buffer ptr 2 =
          slice c.packet 0 2 := by
        rw [← take_slice (show 2 ≤ c.len by omega), hbuilt, withId, writeLe,
          ← slice_splice_of_disjoint (d := le 2 pktSStressData) (i := 2)
            (by rw [length_le]; omega) (.inl (Nat.le_refl _))]
        rfl
      unfold readLe
      rw [hfield, RecvCall.packet, slice_of_take (by omega)]
      exact hc.size
    refine ⟨hcopy, ?_, ?_⟩
    · rw [hstores]
      exact hinside
    · rw [hstores, hsize, hbuilt]

/-- **The reply is the one the session counts on**: it bears the sequence number of the packet. -/
theorem stress_echo_reply (hactive : g.stressTest.stressTestActive = true)
    (hid : packetId c.buffer = pktCStressData) (hc : c.Framed) (h12 : 12 ≤ c.len)
    (env : GameSurroundings) :
    (g.onRecvPacket c.buffer env).2.1 = if env.openFails then [] else
      [.stress (.stressData (readLe (withId c.packet pktSStressData) 4 4))] := by
  have hpacket := hc.length_packet
  have hseq : readLe (withId c.packet pktSStressData) 4 4 = readLe c.buffer 4 4 := by
    rw [withId, readLe_writeLe_of_disjoint (by omega) (.inr (by omega)), RecvCall.packet,
      readLe_take (by omega)]
  have hne : pktCStressData ≠ pktCChat ∧ pktCStressData ≠ pktCStressStart := by decide
  rw [hseq]
  unfold GameSession.onRecvPacket GameSession.onStress StressServer.onRecvPacket
  dsimp only
  rw [hid, if_neg hne.1, if_neg hne.2, if_pos rfl, hactive]
  rfl

end Echo

/-- A session in a stress test. -/
def stressedSession : GameSession where
  stressTest := ⟨true, GameSession.startData [], ∅, 0⟩
  files := ⟨.empty, .new, []⟩

/-- A chunk with eight bytes left. -/
def almostUsed : SendBufferChunk := { SendBufferChunk.new with usedSize := 65528 }

/-- The echo of a packet of just a sequence number and a timestamp. -/
theorem stress_echo_iff_twelve :
    ∃ opened ptr, SendBufferChunk.new.open? 12 = some (opened, ptr) ∧
      EchoFaithful stressedSession opened ptr ⟨[12, 0, 5, 0, 1, 0, 0, 0, 7, 0, 0, 0], 12⟩ := by
  have hused : SendBufferChunk.new.usedSize ≤ SendBufferChunk.chunkSize := by decide
  exact ⟨_, _, rfl, (stress_echo_iff rfl (by decide) ⟨by decide, by decide, by decide⟩ hused
    rfl).mpr (by decide)⟩

/-- **A packet of eight bytes** is delivered too, and the timestamp of its echo is written behind
    the reservation, and behind the chunk if that was almost used up. -/
theorem stress_echo_outside :
    ∃ c, RecvSession.connected₀.handed [[8, 0, 5, 0, 1, 0, 0, 0]] 1 = [c] ∧
      packetId c.buffer = pktCStressData ∧
      ∃ opened ptr, almostUsed.open? c.len = some (opened, ptr) ∧
        ¬ EchoFaithful stressedSession opened ptr c ∧
        ∃ w ∈ stressedSession.replyStores c.buffer,
          SendBufferChunk.chunkSize < ptr + w.offset + w.bytes.length := by
  obtain ⟨c, hc, hpacket, hframed⟩ := RecvSession.handed_one_read [8, 0, 5, 0, 1, 0, 0, 0]
    [8, 0, 5, 0, 1, 0, 0, 0] (by decide) (by decide) (by decide)
  have hlen : c.len = 8 := hframed.length_packet ▸ congrArg List.length hpacket
  have hid : packetId c.buffer = pktCStressData := by
    rw [← GameSession.packetId_packet (by omega), hpacket]
    decide
  have hmem : (⟨8, bytesAt c.buffer 8 4⟩ : ReplyStore) ∈ stressedSession.replyStores c.buffer := by
    rw [GameSession.replyStores, if_pos ⟨hid, rfl⟩]
    simp [echoStores]
  have hend := length_bytesAt c.buffer 8 4
  refine ⟨c, hc, hid, _, 65528, by rw [hlen]; rfl, fun h => ?_, _, hmem, ?_⟩
  · have hin := h.inside _ hmem
    dsimp only at hin
    omega
  · dsimp only [SendBufferChunk.chunkSize]
    omega

/-! ## 3. The echo in the SendBuffer machine -/

namespace SendBufferState

/-- Thread `t` makes the stores and closes `writeSize` bytes. -/
def replyLabels (t : Nat) (ws : List ReplyStore) (writeSize : Nat) : List SendBufferLabel :=
  ws.map (fun w => .write t w.offset w.bytes) ++ [.close t writeSize]

/-- **Stores inside the reservation are steps of the machine.** -/
theorem exec_writes {t b : Nat} {B : SendBuffer} : ∀ (ws : List ReplyStore) {s : SendBufferState},
    s.pc t = .writing b → s.buffers b = some B →
    (∀ w ∈ ws, w.offset + w.bytes.length ≤ B.allocSize) →
    exec next always s (ws.map fun w => .write t w.offset w.bytes) =
      some (s.setChunk B.owner ((s.chunks B.owner).storeAll B.bufferPtr ws))
  | [], s, _, _, _ => by
      rw [List.map_nil, exec]
      unfold SendBufferChunk.storeAll setChunk
      rw [Function.update_eq_self]
  | w :: ws, s, hpc, hB, hws => by
      have hstep : s.next (.write t w.offset w.bytes) = some (s.setChunk B.owner
          ((s.chunks B.owner).store (B.bufferPtr + w.offset) w.bytes)) := by
        simp only [next, hpc, hB, Option.bind_some]
        rw [if_pos (hws w (List.mem_cons_self ..))]
      rw [List.map_cons, exec_cons trivial hstep, exec_writes ws (s := s.setChunk B.owner
        ((s.chunks B.owner).store (B.bufferPtr + w.offset) w.bytes)) hpc hB
        fun w' hw' => hws w' (List.mem_cons_of_mem _ hw')]
      unfold setChunk
      dsimp only
      rw [Function.update_self, Function.update_idem]
      rfl

/-- **The echo in a reservation that `Open` made**: its stores and its `Close` are steps of the
    machine, and the SendBuffer they close holds the packet under its new id. -/
theorem echo_run {s : SendBufferState} (hr : Reach next always fresh s) {t b : Nat}
    {B : SendBuffer} (hpc : s.pc t = .writing b) (hB : s.buffers b = some B) {c : RecvCall}
    (hc : c.Framed) (h12 : 12 ≤ c.len) (hsize : B.allocSize = c.len) :
    ∃ s' B', exec next always s (replyLabels t (echoStores c.buffer) c.len) = some s' ∧
      s'.buffers b = some B' ∧ B'.closed = true ∧
      s'.bytes B' = withId c.packet pktSStressData := by
  have hI : s.SendBufferInv := hr.invariant sendBufferInv_fresh fun _ _ _ hI _ h => hI.step h
  obtain ⟨B₀, hres⟩ : ∃ B, s.Reserves t b B := by
    have hknows := hI.thread t
    rwa [hpc] at hknows
  obtain rfl := Option.some.inj (hB.symm.trans hres.buffer)
  have hroom := hres.room
  have hinside := ((echoStores_inside_iff hc).mpr h12).2
  have hchunk := (s.chunks B.owner).size_buffer
  have hwrites := exec_writes (echoStores c.buffer) hpc hB (by rwa [hsize])
  have hbuilt := slice_storeAll_inside (show B.bufferPtr + c.len ≤ _ by omega)
    (echoStores c.buffer) (s.chunks B.owner) hinside
  rw [foldl_echoStores hc h12 (length_slice_of_le (by omega))] at hbuilt
  -- the thread closes what it has built
  let s₁ := s.setChunk B.owner ((s.chunks B.owner).storeAll B.bufferPtr (echoStores c.buffer))
  let s₂ := ((s₁.setChunk B.owner ((s₁.chunks B.owner).close c.len)).setBuffer b
    { B with writeSize := c.len, closed := true }).goto t .idle
  have hclose : s₁.next (.close t c.len) = some s₂ := by
    have hpc₁ : s₁.pc t = .writing b := hpc
    have hB₁ : s₁.buffers b = some B := hB
    simp only [next, hpc₁, hB₁, Option.bind_some]
    rw [if_pos (Nat.le_of_eq hsize.symm)]
  have hrun : exec next always s (replyLabels t (echoStores c.buffer) c.len) = some s₂ := by
    rw [replyLabels, exec_append, hwrites, Option.bind_some, exec_cons trivial hclose, exec]
  refine ⟨s₂, { B with writeSize := c.len, closed := true }, hrun, Function.update_self .., rfl, ?_⟩
  have howner : ((s₁.setChunk B.owner ((s₁.chunks B.owner).close c.len)).chunks B.owner).buffer =
      ((s.chunks B.owner).storeAll B.bufferPtr (echoStores c.buffer)).buffer := by
    unfold setChunk SendBufferChunk.close
    dsimp only
    rw [Function.update_self]
    dsimp only [s₁, setChunk]
    rw [Function.update_self]
  unfold bytes
  dsimp only [s₂, goto, setBuffer]
  rw [howner]
  exact hbuilt

end SendBufferState

end ServerCore
