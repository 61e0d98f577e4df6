/-
  File:      ServerCore/Reassembly.lean
  Subject:   The receive path of a PacketSession: RegisterRecv, its completion handler, and the
             packets delivered from a stream cut into reads.

  `RecvSession` is what the receive path of `Session` owns. `registerRecv` issues the next
  `async_read_some`; `onReadSome` is the success branch of the handler it passes: the bytes are
  in the buffer, then `OnWrite`, `OnRecv`, `OnRead`, `Clean`, and the next read.

  * `RecvInv`: between two handlers the session is connected, exactly the free space of the
    buffer is offered to the read in flight, at least `BUFFER_SIZE` of it, and the unread bytes
    are an incomplete tail.
  * `readGoesOn_of_parse`, `recv_spec`: one read makes the calls of the greedy parse of the unread
    bytes followed by the bytes read, and leaves its tail.
  * `recvAll_spec`: hence all reads together make the calls of the greedy parse of the stream.
-/
import ServerCore.PacketSession
import ServerCore.RecvBuffer

namespace ServerCore

open Seg

/-! ## 1. The receive path -/

/-- `Session::BUFFER_SIZE` -/
def Session.bufferSize : Int := 0x10000

/-- What the receive path of a session reads and writes. `reading` is the outstanding
    `async_read_some`: the address it stores to and the room it was given. `calls` are the calls
    of `OnRecvPacket` so far. -/
structure RecvSession where
  connected : Bool
  recvBuffer : RecvBuffer
  reading : Option (Nat × Nat)
  calls : List RecvCall

/-- How a read can go wrong beyond what the code handles. -/
inductive RecvFault where
  /-- no read is outstanding -/
  | noRead
  /-- `OnRecv` never returns -/
  | onRecvLoops
  /-- the memcpy of `Clean` is undefined -/
  | memcpyUndefined
  deriving DecidableEq, Repr

namespace RecvSession

/-- The packets delivered so far. -/
def delivered (s : RecvSession) : List (List UInt8) := s.calls.map RecvCall.packet

/-- `Disconnect(cause)`, as far as the receive path sees it. -/
def disconnect (s : RecvSession) : RecvSession := { s with connected := false }

/-- `RegisterRecv()`: offer the free space of the buffer to the next read. -/
def registerRecv (s : RecvSession) : RecvSession :=
  if !s.connected then s
  else { s with reading := some (s.recvBuffer.writePos.toNat, s.recvBuffer.freeSize.toNat) }

/-- The handler of `RegisterRecv` when the read at `pos` completed with `bytes`. -/
def onReadSome (s : RecvSession) (pos : Nat) (bytes : List UInt8) :
    Except RecvFault RecvSession :=
  let stored := s.recvBuffer.store pos bytes
  match stored.onWrite bytes.length with
  | (false, rb) => .ok { s with reading := none, recvBuffer := rb }
  | (true, rb) =>
      let dataSize := rb.dataSize
      match PacketSession.onRecv rb.readMem dataSize.toNat with
      | none => .error .onRecvLoops
      | some (processLen, calls) =>
          let s := { s with reading := none, recvBuffer := rb, calls := s.calls ++ calls }
          if (processLen : Int) < 0 ∨ dataSize < processLen then .ok s.disconnect
          else
            match rb.onRead processLen with
            | (false, _) => .ok s.disconnect
            | (true, rb) =>
                match rb.clean with
                | none => .error .memcpyUndefined
                | some rb => .ok { s with recvBuffer := rb }.registerRecv

/-- The next read completes with `bytes`. -/
def recv (s : RecvSession) (bytes : List UInt8) : Except RecvFault RecvSession :=
  match s.reading with
  | none => .error .noRead
  | some (pos, _) => s.onReadSome pos bytes

/-- The reads complete one after another. -/
def recvAll : RecvSession → List (List UInt8) → Except RecvFault RecvSession
  | s, [] => .ok s
  | s, c :: cs => (s.recv c).bind fun s' => s'.recvAll cs

/-- Every read brings at least one byte and at most `FreeSize()` bytes. -/
def ReadsFit : RecvSession → List (List UInt8) → Prop
  | _, [] => True
  | s, c :: cs =>
      1 ≤ c.length ∧ (c.length : Int) ≤ s.recvBuffer.freeSize ∧
        ∀ s', s.recv c = .ok s' → s'.ReadsFit cs

/-- A session just connected, its first read issued (`ProcessConnect`). -/
def connected₀ : RecvSession :=
  registerRecv ⟨true, RecvBuffer.new Session.bufferSize, none, []⟩

/-! ## 2. One read -/

/-- **The receive invariant** between two handlers. -/
structure RecvInv (s : RecvSession) : Prop where
  connected : s.connected = true
  wf : s.recvBuffer.Wf
  size : s.recvBuffer.bufferSize = Session.bufferSize
  free : Session.bufferSize ≤ s.recvBuffer.freeSize
  reading : s.reading = some (s.recvBuffer.writePos.toNat, s.recvBuffer.freeSize.toNat)
  tail : packetFramer.frame s.recvBuffer.unread = none

theorem recvInv_connected₀ : RecvInv connected₀ where
  connected := rfl
  wf := RecvBuffer.wf_new (by decide)
  size := rfl
  free := by decide
  reading := rfl
  tail := by
    have h : connected₀.recvBuffer.unread = [] := RecvBuffer.unread_new _
    rw [h]
    rfl

/-- **A read goes on**: how the handler of the read at `pos` comes through with `bytes`. The buffer
    is `written` after `OnWrite`, `read` after `OnRead` of the length that `OnRecv` made of it, and
    `cleaned` after `Clean`; then comes `RegisterRecv`. -/
structure ReadGoesOn (s : RecvSession) (pos : Nat) (bytes : List UInt8)
    (written read cleaned : RecvBuffer) (processLen : Nat) (calls : List RecvCall) : Prop where
  onWrite : (s.recvBuffer.store pos bytes).onWrite bytes.length = (true, written)
  onRecv : PacketSession.onRecv written.readMem written.dataSize.toNat = some (processLen, calls)
  inData : (processLen : Int) ≤ written.dataSize
  onRead : written.onRead processLen = (true, read)
  apart : read.dataSize ≠ 0 → read.freeSize < read.bufferSize → read.dataSize ≤ read.readPos
  clean : read.clean = some cleaned
  short : cleaned.unread.length ≤ 65534
  free : Session.bufferSize ≤ cleaned.freeSize

/-- The session after a read that goes on. -/
theorem ReadGoesOn.onReadSome {s : RecvSession} {pos : Nat} {bytes : List UInt8}
    {written read cleaned : RecvBuffer} {processLen : Nat} {calls : List RecvCall}
    (h : ReadGoesOn s pos bytes written read cleaned processLen calls) :
    s.onReadSome pos bytes = .ok (registerRecv
      { s with reading := none, recvBuffer := cleaned, calls := s.calls ++ calls }) := by
  have hin := h.inData
  unfold RecvSession.onReadSome
  simp only [h.onWrite, h.onRecv]
  rw [if_neg (by omega)]
  simp only [h.onRead, h.clean]

/-- Where little is free behind a short unread range, it starts past its own length. -/
theorem apart_of_short {b : RecvBuffer} (h : b.Wf) (hfew : b.dataSize ≤ 4 * b.bufferSize)
    (hfree : b.freeSize < b.bufferSize) : b.dataSize ≤ b.readPos := by
  have h0 := h.sizePos
  have hc := h.capacityEq
  unfold RecvBuffer.freeSize at hfree
  unfold RecvBuffer.dataSize at hfew ⊢
  omega

/-- **A read that fits goes on**, whatever bytes it brings: `OnRecv` makes the calls of the greedy
    parse of the unread bytes and the new ones, and leaves that parse's tail unread. -/
theorem readGoesOn_of_parse {s : RecvSession} (hwf : s.recvBuffer.Wf)
    (hsize : s.recvBuffer.bufferSize = Session.bufferSize) {c t : List UInt8}
    {ps : List (List UInt8)} (hfit : (c.length : Int) ≤ s.recvBuffer.freeSize)
    (hp : packetFramer.Parse (s.recvBuffer.unread ++ c) ps t) :
    ∃ written read cleaned processLen calls,
      ReadGoesOn s s.recvBuffer.writePos.toNat c written read cleaned processLen calls ∧
      cleaned.Wf ∧ cleaned.bufferSize = Session.bufferSize ∧ cleaned.unread = t ∧
      calls.map RecvCall.packet = ps := by
  obtain ⟨rb, hw, hwf, hun, hsize'⟩ := RecvBuffer.onWrite_spec hwf hfit
  -- the data handed to OnRecv is the unread bytes and the new ones
  have hmem : rb.readMem.take rb.dataSize.toNat = s.recvBuffer.unread ++ c := by
    rw [RecvBuffer.take_readMem, hun]
  have hdata : (rb.unread.length : Int) = rb.dataSize := RecvBuffer.length_unread hwf
  have hlen : rb.dataSize.toNat ≤ rb.readMem.length := by
    have h := congrArg List.length (RecvBuffer.take_readMem rb)
    rw [List.length_take] at h
    omega
  rw [← hmem] at hp
  obtain ⟨calls, hrecv, hcalls⟩ := PacketSession.onRecv_of_parse hlen hp
  have htail := hp.frame_tail
  have happ := hp.flatten_append
  rw [hmem, ← hun] at happ
  have htl : t.length ≤ rb.unread.length := by
    rw [← happ, List.length_append]
    omega
  -- OnRead drops what was parsed
  obtain ⟨rb₁, hread, hwf₁, hun₁, hsize₁⟩ := RecvBuffer.onRead_spec hwf
    (n := ((rb.dataSize.toNat - t.length : Nat) : Int)) (by omega) (by omega)
  have ht : rb₁.unread = t := by
    rw [hun₁, ← happ]
    have e : ((rb.dataSize.toNat - t.length : Nat) : Int).toNat = ps.flatten.length := by
      have := congrArg List.length happ
      rw [List.length_append] at this
      omega
    rw [e, List.drop_left]
  have hsize₁ : rb₁.bufferSize = Session.bufferSize := hsize₁.trans (hsize'.trans hsize)
  -- the tail is short, so Clean is defined and frees the room of one read
  have hshort := length_of_packetFrame_none htail
  have hds₁ := RecvBuffer.length_unread hwf₁
  rw [ht] at hds₁
  have hfew : rb₁.dataSize ≤ 4 * rb₁.bufferSize := by
    rw [hsize₁]
    unfold Session.bufferSize
    omega
  obtain ⟨rb₂, hclean, hwf₂, hun₂, hsize₂, hfree₂⟩ := RecvBuffer.clean_spec hwf₁ hfew
  refine ⟨rb, rb₁, rb₂, rb.dataSize.toNat - t.length, calls,
    ⟨hw, hrecv, by omega, hread, fun _ hlow => apart_of_short hwf₁ hfew hlow, hclean, ?_, ?_⟩,
    hwf₂, hsize₂.trans hsize₁, hun₂.trans ht, hcalls⟩
  · rw [hun₂, ht]
    exact hshort
  · rw [← hsize₁]
    exact hfree₂

/-- **One read** makes the calls of the greedy parse of the unread bytes and the new ones, and
    leaves that parse's tail unread. -/
theorem recv_spec {s : RecvSession} (hI : RecvInv s) {c t : List UInt8}
    {ps : List (List UInt8)} (hfit : (c.length : Int) ≤ s.recvBuffer.freeSize)
    (hp : packetFramer.Parse (s.recvBuffer.unread ++ c) ps t) :
    ∃ s', s.recv c = .ok s' ∧ RecvInv s' ∧ s'.recvBuffer.unread = t ∧
      s'.delivered = s.delivered ++ ps := by
  obtain ⟨_, _, rb, _, calls, hgoes, hwf, hsize, hun, hcalls⟩ :=
    readGoesOn_of_parse hI.wf hI.size hfit hp
  refine ⟨⟨true, rb, some (rb.writePos.toNat, rb.freeSize.toNat), s.calls ++ calls⟩,
    ?_, ⟨rfl, hwf, hsize, hgoes.free, rfl, ?_⟩, hun, ?_⟩
  · unfold recv
    rw [hI.reading]
    dsimp only
    rw [hgoes.onReadSome]
    unfold registerRecv
    rw [hI.connected]
    rfl
  · rw [hun]
    exact hp.frame_tail
  · unfold delivered
    rw [List.map_append, hcalls]

/-! ## 3. All reads -/

/-- **All reads together** make the calls of the greedy parse of the unread bytes followed by
    the stream they bring. -/
theorem recvAll_spec : ∀ {cs : List (List UInt8)} {s : RecvSession}, RecvInv s →
    s.ReadsFit cs → ∀ {ps : List (List UInt8)} {t : List UInt8},
    packetFramer.Parse (s.recvBuffer.unread ++ cs.flatten) ps t →
    ∃ s', s.recvAll cs = .ok s' ∧ RecvInv s' ∧ s'.recvBuffer.unread = t ∧
      s'.delivered = s.delivered ++ ps
  | [], s, hI, _, ps, t, hp => by
      rw [List.flatten_nil, List.append_nil] at hp
      obtain ⟨rfl, rfl⟩ := hp.unique (.stop hI.tail)
      exact ⟨s, rfl, hI, rfl, (List.append_nil _).symm⟩
  | c :: cs, s, hI, ⟨_, hle, hfit⟩, ps, t, hp => by
      rw [List.flatten_cons, ← List.append_assoc] at hp
      obtain ⟨ps₁, t₁, ps₂, hp₁, hp₂, rfl⟩ := hp.split
      obtain ⟨s₁, hs₁, hI₁, hun₁, hdel₁⟩ := recv_spec hI hle hp₁
      rw [← hun₁] at hp₂
      obtain ⟨s', hs', hI', hun', hdel'⟩ := recvAll_spec hI₁ (hfit s₁ hs₁) hp₂
      refine ⟨s', ?_, hI', hun', ?_⟩
      · unfold recvAll
        rw [hs₁]
        exact hs'
      · rw [hdel', hdel₁, List.append_assoc]

/-- Reads of at most `BUFFER_SIZE` bytes always fit. -/
theorem readsFit_of_le : ∀ {cs : List (List UInt8)} {s : RecvSession}, RecvInv s →
    packetFramer.Positive (s.recvBuffer.unread ++ cs.flatten) →
    (∀ c ∈ cs, 1 ≤ c.length ∧ (c.length : Int) ≤ Session.bufferSize) → s.ReadsFit cs
  | [], _, _, _, _ => trivial
  | c :: cs, s, hI, hpos, hle => by
      obtain ⟨h1, h2⟩ := hle c List.mem_cons_self
      have hfit : (c.length : Int) ≤ s.recvBuffer.freeSize := Int.le_trans h2 hI.free
      refine ⟨h1, hfit, fun s' hs' => ?_⟩
      obtain ⟨ps, t, hp⟩ := Framer.exists_parse hpos
      rw [List.flatten_cons, ← List.append_assoc] at hp
      obtain ⟨ps₁, t₁, ps₂, hp₁, hp₂, -⟩ := hp.split
      obtain ⟨s₁, hs₁, hI₁, hun₁, -⟩ := recv_spec hI hfit hp₁
      rw [hs₁] at hs'
      cases hs'
      rw [← hun₁] at hp₂
      exact readsFit_of_le hI₁ hp₂.positive fun q hq => hle q (List.mem_cons_of_mem c hq)

/-- **Stream reassembly.** However a stream is cut into reads that fit the free space, a session
    delivers the packets of one greedy parse of the whole stream, in order and once each, keeps
    that parse's incomplete tail unread, and waits for the next read. A stream of well-formed
    packets is delivered as exactly these packets. -/
theorem stream_reassembly :
    (∀ cs : List (List UInt8), packetFramer.Positive cs.flatten → connected₀.ReadsFit cs →
      ∃ ps t s, packetFramer.Parse cs.flatten ps t ∧ connected₀.recvAll cs = .ok s ∧
        s.delivered = ps ∧ s.recvBuffer.unread = t ∧ s.connected = true ∧
        s.reading = some (s.recvBuffer.writePos.toNat, s.recvBuffer.freeSize.toNat) ∧
        Session.bufferSize ≤ s.recvBuffer.freeSize) ∧
    (∀ cs pkts : List (List UInt8), cs.flatten = pkts.flatten →
      (∀ p ∈ pkts, WellFormedPacket p) → connected₀.ReadsFit cs →
      ∃ s, connected₀.recvAll cs = .ok s ∧ s.delivered = pkts ∧ s.recvBuffer.unread = []) := by
  have hun : connected₀.recvBuffer.unread = [] := RecvBuffer.unread_new _
  have main : ∀ {cs ps : List (List UInt8)} {t : List UInt8}, connected₀.ReadsFit cs →
      packetFramer.Parse cs.flatten ps t →
      ∃ s, connected₀.recvAll cs = .ok s ∧ RecvInv s ∧ s.recvBuffer.unread = t ∧
        s.delivered = ps := by
    intro cs ps t hfit hp
    have hp' : packetFramer.Parse (connected₀.recvBuffer.unread ++ cs.flatten) ps t := by
      rw [hun]
      exact hp
    obtain ⟨s, hs, hI, ht, hd⟩ := recvAll_spec recvInv_connected₀ hfit hp'
    exact ⟨s, hs, hI, ht, hd⟩
  constructor
  · intro cs hpos hfit
    obtain ⟨ps, t, hp⟩ := Framer.exists_parse hpos
    obtain ⟨s, hs, hI, ht, hd⟩ := main hfit hp
    exact ⟨ps, t, s, hp, hs, hd, ht, hI.connected, hI.reading, hI.free⟩
  · intro cs pkts hcat hwf hfit
    have hp : packetFramer.Parse pkts.flatten pkts [] :=
      Framer.parse_frames rfl fun p hp => ⟨(hwf p hp).frame, by have := (hwf p hp).1; omega⟩
    rw [← hcat] at hp
    obtain ⟨s, hs, _, ht, hd⟩ := main hfit hp
    exact ⟨s, hs, hd, ht⟩

/-- Two packets, cut inside the size field of each: delivered as these two. One byte less, and
    the second stays unread. -/
theorem stream_reassembly_two_packets :
    (∃ ps t s, packetFramer.Parse [[5], [0, 1, 0, 9, 4], [0, 2]].flatten ps t ∧
      connected₀.recvAll [[5], [0, 1, 0, 9, 4], [0, 2]] = .ok s ∧ s.delivered = ps ∧
      s.recvBuffer.unread = t ∧ s.connected = true ∧
      s.reading = some (s.recvBuffer.writePos.toNat, s.recvBuffer.freeSize.toNat) ∧
      Session.bufferSize ≤ s.recvBuffer.freeSize) ∧
    ∃ s, connected₀.recvAll [[5], [0, 1, 0, 9, 4], [0, 2, 0]] = .ok s ∧
      s.delivered = [[5, 0, 1, 0, 9], [4, 0, 2, 0]] ∧ s.recvBuffer.unread = [] := by
  have hun : connected₀.recvBuffer.unread = [] := RecvBuffer.unread_new _
  have hp₁ : packetFramer.Parse [5, 0, 1, 0, 9, 4, 0, 2] [[5, 0, 1, 0, 9]] [4, 0, 2] :=
    .take (n := 5) (by decide) (by decide) (.stop (by decide))
  have hp₂ : packetFramer.Parse [5, 0, 1, 0, 9, 4, 0, 2, 0] [[5, 0, 1, 0, 9], [4, 0, 2, 0]] [] :=
    .take (n := 5) (by decide) (by decide) (.take (n := 4) (by decide) (by decide)
      (.stop (by decide)))
  constructor
  · exact stream_reassembly.1 _ hp₁.positive
      (readsFit_of_le recvInv_connected₀ (by rw [hun]; exact hp₁.positive) (by decide))
  · exact stream_reassembly.2 _ _ (by decide) (by decide)
      (readsFit_of_le recvInv_connected₀ (by rw [hun]; exact hp₂.positive) (by decide))

end RecvSession

end ServerCore
