/-
  File:      ServerCore/PacketPipe.lean
  Subject:   The bytes on the way to a session, and its receive path.

  Packets are put on the way whole, one after another; a read takes any number of bytes from there
  that the free space has room for, and knows nothing of packets. `Holds rest later`: the packets
  not handed over yet are `later`, the last bytes of which, `rest`, are not on the way yet.

  * `Holds.put`, `Holds.read`: putting packets adds them, and a read of any size goes through and
    hands over the first of them.
  * `Holds.nil_of_empty`: nothing is left back in the buffer.
-/
import ServerCore.Handover

namespace ServerCore

open Seg

/-! ## 1. The calls of a read -/

/-- The calls of the loop of `OnRecv` are framed. -/
theorem PacketSession.framed_onRecvLoop {buffer : List UInt8} {len : Nat}
    (hlen : len ≤ buffer.length) : ∀ {fuel p processLen : Nat} {calls : List RecvCall},
    onRecvLoop buffer len fuel p = some (processLen, calls) → ∀ c ∈ calls, c.Framed
  | 0, _, _, _, h => nomatch h
  | fuel + 1, p, processLen, calls, h => by
      unfold onRecvLoop sizeofPacketHeader at h
      simp only at h
      split at h
      · cases h
        exact List.forall_mem_nil _
      · split at h
        · cases h
          exact List.forall_mem_nil _
        · obtain ⟨⟨q, calls'⟩, hrest, e⟩ := Option.map_eq_some_iff.mp h
          cases e
          have hl : (buffer.drop p).length = buffer.length - p := List.length_drop
          refine List.forall_mem_cons.mpr ⟨⟨?_, rfl, ?_⟩, framed_onRecvLoop hlen hrest⟩
          · rw [hl]
            omega
          · rw [hl]
            dsimp only
            omega

/-- **One read** makes framed calls, those of the greedy parse, and leaves the tail. -/
theorem RecvSession.recv_calls {s : RecvSession} (hI : RecvInv s) {c t : List UInt8}
    {ps : List (List UInt8)} (hfit : (c.length : Int) ≤ s.recvBuffer.freeSize)
    (hp : packetFramer.Parse (s.recvBuffer.unread ++ c) ps t) :
    ∃ s' calls, s.recv c = .ok s' ∧ RecvInv s' ∧ s'.recvBuffer.unread = t ∧
      s'.calls = s.calls ++ calls ∧ calls.map RecvCall.packet = ps ∧ ∀ c ∈ calls, c.Framed := by
  obtain ⟨written, read, cleaned, processLen, calls, hgoes, -, -, -, hcalls⟩ :=
    readGoesOn_of_parse hI.wf hI.size hfit hp
  obtain ⟨s', hs', hI', hun, -⟩ := recv_spec hI hfit hp
  have hrun : s.recv c = .ok (registerRecv
      { s with reading := none, recvBuffer := cleaned, calls := s.calls ++ calls }) := by
    unfold recv
    rw [hI.reading]
    exact hgoes.onReadSome
  have hcalls' : s'.calls = s.calls ++ calls := by
    rw [hs'] at hrun
    obtain rfl := Except.ok.inj hrun
    unfold registerRecv
    split
    · rfl
    · rfl
  -- the data is inside the memory that OnRecv is given
  obtain ⟨written', hw, hwf, -, -⟩ := RecvBuffer.onWrite_spec hI.wf hfit
  obtain rfl : written = written' := congrArg Prod.snd (hgoes.onWrite.symm.trans hw)
  have hlen : written.dataSize.toNat ≤ written.readMem.length := by
    have htake := congrArg List.length (RecvBuffer.take_readMem written)
    have hun := RecvBuffer.length_unread hwf
    rw [List.length_take] at htake
    omega
  exact ⟨s', calls, hs', hI', hun, hcalls', hcalls,
    PacketSession.framed_onRecvLoop hlen hgoes.onRecv⟩

/-! ## 2. The pipe -/

/-- The bytes on the way to a session, and the session's receive path. -/
structure PacketPipe where
  onWay : List UInt8
  receiver : RecvSession

/-- What happens next: a packet is put on the way, or a read of `n` bytes completes. -/
inductive PipeStep where
  | put (packet : List UInt8)
  | read (n : Nat)
  deriving DecidableEq, Repr

namespace PacketPipe

/-- A session just connected. -/
def start : PacketPipe := ⟨[], RecvSession.connected₀⟩

/-- The packets handed over so far. -/
def delivered (p : PacketPipe) : List (List UInt8) := p.receiver.delivered

/-- The bytes received of the next packet. -/
def unread (p : PacketPipe) : List UInt8 := p.receiver.recvBuffer.unread

/-- `packets` go on the way. -/
def put (p : PacketPipe) (packets : List (List UInt8)) : PacketPipe :=
  { p with onWay := p.onWay ++ packets.flatten }

@[simp] theorem put_nil (p : PacketPipe) : p.put [] = p := by
  unfold put
  rw [List.flatten_nil, List.append_nil]

/-- What a read can bring: at least one byte, and no more than there is room for. -/
def ReadFits (p : PacketPipe) (n : Nat) : Prop :=
  1 ≤ n ∧ n ≤ p.onWay.length ∧ (n : Int) ≤ p.receiver.recvBuffer.freeSize

instance (p : PacketPipe) (n : Nat) : Decidable (p.ReadFits n) :=
  inferInstanceAs (Decidable (_ ∧ _))

/-- A read of `n` bytes completes: the receiver afterwards, and the calls it has made. `none`: there
    is no such read, or it fails. -/
def read (p : PacketPipe) (n : Nat) : Option (PacketPipe × List RecvCall) :=
  if p.ReadFits n then
    match p.receiver.recv (p.onWay.take n) with
    | .ok r => some (⟨p.onWay.drop n, r⟩, r.calls.drop p.receiver.calls.length)
    | .error _ => none
  else none

/-- **The step function of the pipe.** -/
def next (p : PacketPipe) : PipeStep → Option PacketPipe
  | .put packet => some (p.put [packet])
  | .read n => (p.read n).map Prod.fst

/-! ## 3. What it holds -/

/-- **The packets `later` are not handed over yet**, and all that is not on the way of them are the
    last bytes `rest`. -/
structure Holds (p : PacketPipe) (rest : List UInt8) (later : List (List UInt8)) : Prop where
  recv : p.receiver.RecvInv
  stream : p.unread ++ p.onWay ++ rest = later.flatten
  packets : ∀ q ∈ later, WellFormedPacket q

theorem holds_start : Holds start [] [] where
  recv := RecvSession.recvInv_connected₀
  stream := by
    have hun : start.unread = [] := RecvBuffer.unread_new _
    rw [hun]
    rfl
  packets := List.forall_mem_nil _

theorem Holds.put {p : PacketPipe} {later ps : List (List UInt8)} (h : p.Holds [] later)
    (hps : ∀ q ∈ ps, WellFormedPacket q) : (p.put ps).Holds [] (later ++ ps) where
  recv := h.recv
  stream := by
    have hs := h.stream
    rw [List.append_nil] at hs ⊢
    show p.unread ++ (p.onWay ++ ps.flatten) = _
    rw [← List.append_assoc, hs, List.flatten_append]
  packets q hq := (List.mem_append.mp hq).elim (h.packets q) (hps q)

theorem frames_of_wellFormed {ps : List (List UInt8)} (h : ∀ p ∈ ps, WellFormedPacket p) :
    ∀ p ∈ ps, packetFramer.frame p = some p.length ∧ 0 < p.length := fun p hp =>
  ⟨(h p hp).frame, Nat.lt_of_lt_of_le (by decide) (h p hp).1⟩

/-- The bytes say which packets they are. -/
theorem Holds.unique {p : PacketPipe} {rest : List UInt8} {later later' : List (List UInt8)}
    (h : p.Holds rest later) (h' : p.Holds rest later') : later = later' := by
  have hparse := Framer.parse_frames (F := packetFramer) rfl (frames_of_wellFormed h.packets)
  have hparse' := Framer.parse_frames (F := packetFramer) rfl (frames_of_wellFormed h'.packets)
  rw [← h.stream, h'.stream] at hparse
  exact (hparse.unique hparse').1

/-- **A read of any size goes through**, and hands over the first packets. -/
theorem Holds.read {p : PacketPipe} {rest : List UInt8} {later : List (List UInt8)}
    (h : p.Holds rest later) {n : Nat} (hn : p.ReadFits n) :
    ∃ r calls ps later', p.read n = some (⟨p.onWay.drop n, r⟩, calls) ∧ later = ps ++ later' ∧
      calls.map RecvCall.packet = ps ∧ (∀ c ∈ calls, c.Framed) ∧
      r.delivered = p.delivered ++ ps ∧ Holds ⟨p.onWay.drop n, r⟩ rest later' := by
  have hcat : p.unread ++ p.onWay.take n ++ (p.onWay.drop n ++ rest) = later.flatten := by
    rw [← h.stream, ← List.append_assoc, List.append_assoc p.unread, List.take_append_drop]
  obtain ⟨ps, later', t, rfl, hparse, hrest⟩ :=
    Framer.parse_prefix rfl (frames_of_wellFormed h.packets) hcat
  have hfit : ((p.onWay.take n).length : Int) ≤ p.receiver.recvBuffer.freeSize := by
    rw [List.length_take, Nat.min_eq_left hn.2.1]
    exact hn.2.2
  obtain ⟨r, calls, hr, hR, hun, hcalls, hpackets, hframed⟩ :=
    RecvSession.recv_calls h.recv hfit hparse
  refine ⟨r, calls, ps, later', ?_, rfl, hpackets, hframed, ?_, hR, ?_, fun q hq =>
    h.packets q (List.mem_append_right _ hq)⟩
  · rw [PacketPipe.read, if_pos hn, hr]
    dsimp only
    rw [hcalls, List.drop_left]
  · show r.calls.map RecvCall.packet = p.receiver.calls.map RecvCall.packet ++ ps
    rw [hcalls, List.map_append, hpackets]
  · show r.recvBuffer.unread ++ p.onWay.drop n ++ rest = later'.flatten
    rw [hun, List.append_assoc, hrest]

theorem readFits_of_read {p : PacketPipe} {n : Nat} {r : PacketPipe × List RecvCall}
    (h : p.read n = some r) : p.ReadFits n := by
  unfold read at h
  split at h
  · rename_i hn
    exact hn
  · nomatch h

/-- **A read that was made** has handed over the first packets. -/
theorem Holds.taken {p p' : PacketPipe} {rest : List UInt8} {later : List (List UInt8)}
    (h : p.Holds rest later) {n : Nat} {calls : List RecvCall}
    (hread : p.read n = some (p', calls)) :
    ∃ later', later = calls.map RecvCall.packet ++ later' ∧ (∀ c ∈ calls, c.Framed) ∧
      p'.delivered = p.delivered ++ calls.map RecvCall.packet ∧ p'.Holds rest later' := by
  obtain ⟨r, calls', ps, later', hread', rfl, rfl, hframed, hdelivered, hH⟩ :=
    h.read (readFits_of_read hread)
  obtain ⟨rfl, rfl⟩ := Prod.mk.inj (Option.some.inj (hread'.symm.trans hread))
  exact ⟨later', rfl, hframed, hdelivered, hH⟩

/-- A read takes from the front: what is put on the way behind it does not matter. -/
theorem read_of_prefix {p q : PacketPipe} (hr : p.receiver = q.receiver)
    (hway : q.onWay <+: p.onWay) {n : Nat} {q' : PacketPipe} {calls : List RecvCall}
    (h : q.read n = some (q', calls)) :
    ∃ p', p.read n = some (p', calls) ∧ p'.receiver = q'.receiver := by
  obtain ⟨h1, hle, hroom⟩ := readFits_of_read h
  obtain ⟨more, hmore⟩ := hway
  have hn : p.ReadFits n := by
    refine ⟨h1, ?_, hr ▸ hroom⟩
    rw [← hmore, List.length_append]
    omega
  have htake : p.onWay.take n = q.onWay.take n := by
    rw [← hmore, List.take_append_of_le_length hle]
  unfold read at h ⊢
  rw [if_pos ⟨h1, hle, hroom⟩] at h
  rw [if_pos hn, htake, hr]
  split at h
  · cases h
    exact ⟨_, rfl, rfl⟩
  · nomatch h

/-- Between two reads there is room for another of `BUFFER_SIZE` bytes. -/
theorem Holds.readFits {p : PacketPipe} {rest : List UInt8} {later : List (List UInt8)}
    (h : p.Holds rest later) {n : Nat} (h1 : 1 ≤ n) (hle : n ≤ p.onWay.length)
    (hsize : (n : Int) ≤ Session.bufferSize) : p.ReadFits n :=
  ⟨h1, hle, Int.le_trans hsize h.recv.free⟩

/-- **With nothing on the way all packets were handed over.** -/
theorem Holds.nil_of_empty {p : PacketPipe} {later : List (List UInt8)} (h : p.Holds [] later)
    (hway : p.onWay = []) : later = [] ∧ p.unread = [] := by
  have hs := h.stream
  rw [hway, List.append_nil, List.append_nil] at hs
  -- the unread bytes hold no packet
  have hnil : later = [] := Framer.eq_nil_of_frame_none (F := packetFramer)
    (fun q hq => (h.packets q hq).frame) (hs ▸ h.recv.tail)
  subst hnil
  exact ⟨rfl, hs⟩

end PacketPipe

end ServerCore
