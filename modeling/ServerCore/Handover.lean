/-
  File:      ServerCore/Handover.lean
  Subject:   The calls of OnRecvPacket that a stream leads to, also where OnRecv never returns.

  `handed` are the calls made while reads complete, up to a number of them; a loop that does not
  end makes calls without end. Whatever the stream and however it is cut into reads, the packets
  handed over are the first frames of the stream (`handed_packets`), and each call sees, from its
  packet on, the rest of the receive buffer.
-/
import ServerCore.PacketLoop
import ServerCore.Reassembly

namespace ServerCore

open Seg

/-- A call as `OnRecv` makes it: a header is there, and `len` is its size field and inside the
    memory that follows. -/
structure RecvCall.Framed (c : RecvCall) : Prop where
  header : 4 ≤ c.buffer.length
  size : PacketHeader.size c.buffer = c.len
  inside : c.len ≤ c.buffer.length

theorem RecvCall.Framed.length_packet {c : RecvCall} (h : c.Framed) : c.packet.length = c.len := by
  rw [RecvCall.packet, List.length_take, Nat.min_eq_left h.inside]

namespace PacketSession

/-- The first `k` calls of the loop of `OnRecv` from `processLen` on. -/
def callsUpTo (buffer : List UInt8) (len : Nat) : Nat → Nat → List RecvCall
  | 0, _ => []
  | k + 1, processLen => match pass buffer len processLen with
    | none => []
    | some q => ⟨buffer.drop processLen, q - processLen⟩ :: callsUpTo buffer len k q

/-- **The calls of the loop are the first frames of what is left.** -/
theorem callsUpTo_packets {buffer : List UInt8} {len : Nat} (hlen : len ≤ buffer.length)
    (k : Nat) : ∀ {p : Nat}, p ≤ len →
    (callsUpTo buffer len k p).map RecvCall.packet =
        packetFramer.firstFrames k (slice buffer p (len - p)) ∧
      ∀ c ∈ callsUpTo buffer len k p, c.Framed := by
  induction k with
  | zero => exact fun _ => ⟨rfl, List.forall_mem_nil _⟩
  | succ k ih =>
      intro p hp
      have hpass := pass_eq_frame hlen hp
      cases hf : packetFramer.frame (slice buffer p (len - p)) with
      | none =>
          rw [hf] at hpass
          rw [Framer.firstFrames_none hf, callsUpTo, hpass]
          exact ⟨rfl, List.forall_mem_nil _⟩
      | some n =>
          rw [hf] at hpass
          obtain ⟨h4, hsize, hn⟩ := packetFrame_eq_some.mp hf
          have hl : (slice buffer p (len - p)).length = len - p := length_slice_of_le (by omega)
          rw [PacketHeader.size_slice (by omega)] at hsize
          obtain ⟨hmap, hframed⟩ := ih (p := p + n) (by omega)
          rw [Framer.firstFrames_some hf, callsUpTo, hpass]
          simp only [Option.map_some, List.map_cons, Nat.add_sub_cancel_left]
          refine ⟨?_, List.forall_mem_cons.mpr ⟨⟨?_, hsize, ?_⟩, hframed⟩⟩
          · rw [hmap, drop_rest, take_slice (by omega)]
            rfl
          · rw [List.length_drop]
            omega
          · dsimp only
            rw [List.length_drop]
            omega

end PacketSession

namespace RecvSession

/-- The first `k` calls of `OnRecvPacket` while the reads complete one after another. -/
def handed : RecvSession → List (List UInt8) → Nat → List RecvCall
  | _, [], _ => []
  | s, c :: cs, k => match s.reading with
    | none => []
    | some (pos, _) => match (s.recvBuffer.store pos c).onWrite c.length with
      | (false, _) => []
      | (true, written) =>
          let calls := PacketSession.callsUpTo written.readMem written.dataSize.toNat k 0
          calls ++ match s.recv c with
            | .error _ => []
            | .ok s' => s'.handed cs (k - calls.length)

theorem handed_zero (cs : List (List UInt8)) : ∀ s : RecvSession, s.handed cs 0 = [] := by
  induction cs with
  | nil => exact fun s => rfl
  | cons c cs ih =>
      intro s
      rw [handed]
      split
      · rfl
      · split
        · rfl
        · dsimp only [PacketSession.callsUpTo]
          rw [List.nil_append]
          split
          · rfl
          · exact ih _

/-- **The packets handed over are the first frames of the stream**, whatever it is and however it
    is cut into reads that fit. -/
theorem handed_packets : ∀ {cs : List (List UInt8)} {s : RecvSession}, RecvInv s → s.ReadsFit cs →
    ∀ k, (s.handed cs k).map RecvCall.packet =
        packetFramer.firstFrames k (s.recvBuffer.unread ++ cs.flatten) ∧
      ∀ c ∈ s.handed cs k, c.Framed
  | [], s, hI, _, k => by
      rw [List.flatten_nil, List.append_nil, Framer.firstFrames_none hI.tail]
      exact ⟨rfl, List.forall_mem_nil _⟩
  | c :: cs, s, hI, ⟨_, hle, hfit⟩, k => by
      obtain ⟨written, hwrite, hwf, hun, -⟩ := RecvBuffer.onWrite_spec hI.wf hle
      have hdata : written.dataSize.toNat = written.unread.length := by
        have := RecvBuffer.length_unread hwf
        omega
      have hmem : slice written.readMem 0 (written.dataSize.toNat - 0) =
          s.recvBuffer.unread ++ c := by
        rw [← hun]
        rfl
      have hlen : written.dataSize.toNat ≤ written.readMem.length := by
        rw [hdata, ← RecvBuffer.take_readMem, List.length_take]
        exact Nat.min_le_right _ _
      obtain ⟨hmap, hframed⟩ := PacketSession.callsUpTo_packets hlen k (Nat.zero_le _)
      rw [hmem] at hmap
      have hcount := congrArg List.length hmap
      rw [List.length_map] at hcount
      rw [handed, hI.reading]
      simp only [hwrite]
      rw [List.flatten_cons, ← List.append_assoc, Framer.firstFrames_append, ← hcount]
      by_cases hshort : (packetFramer.firstFrames k (s.recvBuffer.unread ++ c)).length < k
      -- the loop has come to its end, and the next read goes on from its tail
      · obtain ⟨s', hs', hI', hun', -⟩ := recv_spec hI hle (Framer.parse_of_short k hshort)
        obtain ⟨hmap', hframed'⟩ := handed_packets hI' (hfit s' hs')
          (k - (PacketSession.callsUpTo written.readMem written.dataSize.toNat k 0).length)
        rw [hs', List.map_append, hmap, hmap', hun']
        exact ⟨rfl, List.forall_mem_append.mpr ⟨hframed, hframed'⟩⟩
      · have hrest : k - (PacketSession.callsUpTo written.readMem written.dataSize.toNat k 0).length
            = 0 := by omega
        rw [hrest]
        have hnone : (match s.recv c with
            | .error _ => []
            | .ok s' => s'.handed cs 0) = ([] : List RecvCall) := by
          split
          · rfl
          · exact handed_zero cs _
        rw [hnone, List.append_nil, hmap]
        exact ⟨(List.append_nil _).symm, hframed⟩

/-- The first packet of one read is handed over. -/
theorem handed_one_read (bytes packet : List UInt8) (h1 : 1 ≤ bytes.length)
    (hlen : bytes.length ≤ 655360) (hf : packetFramer.firstFrames 1 bytes = [packet]) :
    ∃ c, connected₀.handed [bytes] 1 = [c] ∧ c.packet = packet ∧ c.Framed := by
  have hfit : connected₀.ReadsFit [bytes] := ⟨h1, Int.ofNat_le.mpr hlen, fun _ _ => trivial⟩
  obtain ⟨hpackets, hframed⟩ := handed_packets recvInv_connected₀ hfit 1
  have hnil : connected₀.recvBuffer.unread = [] := RecvBuffer.unread_new _
  rw [hnil, List.nil_append, List.flatten_singleton, hf] at hpackets
  obtain ⟨c, hc, rfl⟩ := List.map_eq_singleton_iff.mp hpackets
  exact ⟨c, hc, rfl, hframed c (hc ▸ List.mem_singleton_self c)⟩

end RecvSession

end ServerCore
