/-
  File:      ServerCore/PacketSession.lean
  Subject:   PacketSession::OnRecv (Session.cpp): the packets found in the unread bytes.

  `onRecvLoop` is the `while (true)` of `OnRecv` with a bound on its iterations. A packet header
  whose size field is zero keeps the loop where it is for ever; any other size moves it on, so
  `len + 1` iterations decide (`onRecv`, `onRecv_eq_some_iff`).

  `packetFramer` is the framing rule on its own, and `onRecvLoop_of_parse` says that `OnRecv`
  makes the calls of the greedy parse of its data, and returns the length of what it parsed.
-/
import ServerCore.Lib.Framing
import ServerCore.Lib.LittleEndian

namespace ServerCore

open Seg LittleEndian

/-! ## 1. Headers and calls -/

/-- `sizeof(PacketHeader)` -/
def sizeofPacketHeader : Nat := 4

/-- `PacketHeader::size`, the uint16 at offset 0. -/
def PacketHeader.size (p : List UInt8) : Nat := readLe p 0 2

/-- `PacketHeader::id`, the uint16 at offset 2. -/
def PacketHeader.id (p : List UInt8) : Nat := readLe p 2 2

/-- One call `OnRecvPacket(buffer, len)`: the memory from `buffer` on, and `len`. -/
structure RecvCall where
  buffer : List UInt8
  len : Nat
  deriving DecidableEq, Repr

/-- The bytes `[buffer, buffer + len)` of a call. -/
def RecvCall.packet (c : RecvCall) : List UInt8 := c.buffer.take c.len

theorem PacketHeader.size_lt (p : List UInt8) : PacketHeader.size p < 65536 :=
  readLe_lt p 0 2

/-- The size field is read from the first two bytes. -/
theorem PacketHeader.size_append {p : List UInt8} (more : List UInt8) (h : 2 ≤ p.length) :
    PacketHeader.size (p ++ more) = PacketHeader.size p := by
  unfold PacketHeader.size readLe slice
  rw [List.drop_zero, List.drop_zero, List.take_append_of_le_length h]

/-- The header at position `p` of a memory is the header of a range read from there. -/
theorem PacketHeader.size_slice {buffer : List UInt8} {p m : Nat}
    (h : 2 ≤ (slice buffer p m).length) :
    PacketHeader.size (slice buffer p m) = PacketHeader.size (buffer.drop p) := by
  have happ := PacketHeader.size_append ((buffer.drop p).drop m) h
  unfold slice at happ ⊢
  rw [List.take_append_drop] at happ
  exact happ.symm

/-! ## 2. The loop -/

namespace PacketSession

/-- The loop of `OnRecv` at `processLen`, for at most `fuel` iterations: the length processed and
    the calls made. `none`: the loop has not left yet. -/
def onRecvLoop (buffer : List UInt8) (len : Nat) : Nat → Nat → Option (Nat × List RecvCall)
  | 0, _ => none
  | fuel + 1, processLen =>
      let dataSize := len - processLen
      if dataSize < sizeofPacketHeader then some (processLen, [])
      else
        let size := PacketHeader.size (buffer.drop processLen)
        if dataSize < size then some (processLen, [])
        else
          (onRecvLoop buffer len fuel (processLen + size)).map fun r =>
            (r.1, ⟨buffer.drop processLen, size⟩ :: r.2)

/-- `PacketSession::OnRecv(buffer, len)`. `none`: it never returns. -/
def onRecv (buffer : List UInt8) (len : Nat) : Option (Nat × List RecvCall) :=
  onRecvLoop buffer len (len + 1) 0

theorem onRecvLoop_mono {buffer : List UInt8} {len : Nat} {r : Nat × List RecvCall} :
    ∀ {fuel fuel' p : Nat}, onRecvLoop buffer len fuel p = some r → fuel ≤ fuel' →
      onRecvLoop buffer len fuel' p = some r
  | 0, _, _, h, _ => by cases h
  | fuel + 1, 0, _, _, hle => absurd hle (Nat.not_succ_le_zero fuel)
  | fuel + 1, fuel' + 1, p, h, hle => by
      unfold onRecvLoop at h ⊢
      simp only at h ⊢
      split
      · rw [if_pos ‹_›] at h
        exact h
      · rw [if_neg ‹_›] at h
        split
        · rw [if_pos ‹_›] at h
          exact h
        · rw [if_neg ‹_›] at h
          obtain ⟨q, hq, rfl⟩ := Option.map_eq_some_iff.mp h
          rw [onRecvLoop_mono hq (Nat.le_of_succ_le_succ hle)]
          rfl

/-- A zero size field keeps the loop at its place. -/
theorem onRecvLoop_of_size_zero {buffer : List UInt8} {len p : Nat}
    (hd : ¬ len - p < sizeofPacketHeader) (hz : PacketHeader.size (buffer.drop p) = 0) :
    ∀ fuel, onRecvLoop buffer len fuel p = none
  | 0 => rfl
  | fuel + 1 => by
      unfold onRecvLoop
      simp only
      rw [if_neg hd, hz, if_neg (Nat.not_lt_zero _), Nat.add_zero,
        onRecvLoop_of_size_zero hd hz fuel]
      rfl

/-- Where the loop leaves at all, it leaves within one iteration for each byte left. -/
theorem onRecvLoop_bound {buffer : List UInt8} {len : Nat} :
    ∀ {fuel p : Nat} {r : Nat × List RecvCall}, onRecvLoop buffer len fuel p = some r →
      onRecvLoop buffer len (len - p + 1) p = some r
  | 0, _, _, h => by cases h
  | fuel + 1, p, r, h => by
      have h₀ := h
      unfold onRecvLoop at h ⊢
      simp only at h ⊢
      split
      · rw [if_pos ‹_›] at h
        exact h
      · rename_i hd
        rw [if_neg hd] at h
        split
        · rw [if_pos ‹_›] at h
          exact h
        · rename_i hs
          rw [if_neg hs] at h
          obtain ⟨q, hq, rfl⟩ := Option.map_eq_some_iff.mp h
          have hpos : 0 < PacketHeader.size (buffer.drop p) := by
            refine Nat.pos_of_ne_zero fun hz => ?_
            rw [onRecvLoop_of_size_zero hd hz] at h₀
            cases h₀
          rw [onRecvLoop_mono (onRecvLoop_bound hq) (by omega)]
          rfl

/-- **What `onRecv` answers is what the loop leaves with**, after however many iterations; `none` is
    a loop that never leaves. -/
theorem onRecv_eq_some_iff {buffer : List UInt8} {len : Nat} {r : Nat × List RecvCall} :
    onRecv buffer len = some r ↔ ∃ fuel, onRecvLoop buffer len fuel 0 = some r := by
  refine ⟨fun h => ⟨len + 1, h⟩, fun ⟨fuel, h⟩ => ?_⟩
  have hb := onRecvLoop_bound h
  rwa [Nat.sub_zero] at hb

end PacketSession

/-! ## 3. The framing rule, and what `OnRecv` does with it -/

/-- The frames of the stream: at least a header, and as many bytes as its size field says. -/
def packetFrame (bs : List UInt8) : Option Nat :=
  if bs.length < sizeofPacketHeader then none
  else if bs.length < PacketHeader.size bs then none
  else some (PacketHeader.size bs)

theorem packetFrame_eq_some {bs : List UInt8} {n : Nat} :
    packetFrame bs = some n ↔ 4 ≤ bs.length ∧ PacketHeader.size bs = n ∧ n ≤ bs.length := by
  unfold packetFrame sizeofPacketHeader
  split
  · simp only [reduceCtorEq, false_iff]
    omega
  · split
    · simp only [reduceCtorEq, false_iff]
      omega
    · simp only [Option.some.injEq]
      omega

/-- **The packet framing of a session.** -/
def packetFramer : Framer UInt8 where
  frame := packetFrame
  le_length h := (packetFrame_eq_some.mp h).2.2
  stable more h := by
    obtain ⟨h4, hs, hle⟩ := packetFrame_eq_some.mp h
    rw [packetFrame_eq_some, PacketHeader.size_append more (by omega), List.length_append]
    exact ⟨by omega, hs, by omega⟩

/-- An incomplete tail is shorter than the largest size field can say. -/
theorem length_of_packetFrame_none {bs : List UInt8} (h : packetFramer.frame bs = none) :
    bs.length ≤ 65534 := by
  have hs := PacketHeader.size_lt bs
  have h' : packetFrame bs = none := h
  unfold packetFrame sizeofPacketHeader at h'
  split at h'
  · omega
  · split at h'
    · omega
    · cases h'

/-- A packet that carries its own length, at least a header long. -/
def WellFormedPacket (p : List UInt8) : Prop :=
  4 ≤ p.length ∧ PacketHeader.size p = p.length

instance (p : List UInt8) : Decidable (WellFormedPacket p) :=
  inferInstanceAs (Decidable (_ ∧ _))

theorem WellFormedPacket.frame {p : List UInt8} (h : WellFormedPacket p) :
    packetFramer.frame p = some p.length :=
  packetFrame_eq_some.mpr ⟨h.1, h.2, Nat.le_refl _⟩

/-- **`OnRecv` makes the calls of the greedy parse** of its data, from `p` on, and returns the
    length up to the incomplete tail. -/
theorem PacketSession.onRecvLoop_of_parse {buffer : List UInt8} {len : Nat}
    (hlen : len ≤ buffer.length) {bs t : List UInt8} {ps : List (List UInt8)}
    (h : packetFramer.Parse bs ps t) : ∀ {p : Nat}, p ≤ len → bs = slice buffer p (len - p) →
      ∃ fuel calls, onRecvLoop buffer len fuel p = some (len - t.length, calls) ∧
        calls.map RecvCall.packet = ps := by
  induction h with
  | @stop bs hs =>
      intro p hp hbs
      have hbl : bs.length = len - p := by
        rw [hbs]
        exact length_slice_of_le (by omega)
      refine ⟨1, [], ?_, rfl⟩
      have e : len - bs.length = p := by omega
      unfold onRecvLoop
      simp only
      rw [e]
      split
      · rfl
      · rename_i hd
        unfold sizeofPacketHeader at hd
        -- the header is complete, so the packet is not
        have hsz : PacketHeader.size (buffer.drop p) = PacketHeader.size bs := by
          rw [hbs, PacketHeader.size_slice (by rw [← hbs]; omega)]
        have hs' : packetFrame bs = none := hs
        unfold packetFrame sizeofPacketHeader at hs'
        rw [if_neg (by omega)] at hs'
        split at hs'
        · rw [if_pos (by omega)]
        · cases hs'
  | @take bs n ps t hs hn _ ih =>
      intro p hp hbs
      obtain ⟨h4, hsz, hle⟩ := packetFrame_eq_some.mp hs
      have hbl : bs.length = len - p := by
        rw [hbs]
        exact length_slice_of_le (by omega)
      have hsize : PacketHeader.size (buffer.drop p) = n := by
        rw [← PacketHeader.size_slice (by rw [← hbs]; omega), ← hbs]
        exact hsz
      have hrest : bs.drop n = slice buffer (p + n) (len - (p + n)) := by
        rw [hbs, drop_slice]
        congr 1
        omega
      obtain ⟨fuel, calls, hc, hmap⟩ := ih (p := p + n) (by omega) hrest
      refine ⟨fuel + 1, ⟨buffer.drop p, n⟩ :: calls, ?_, ?_⟩
      · unfold onRecvLoop sizeofPacketHeader
        simp only
        rw [if_neg (by omega), hsize, if_neg (by omega), hc]
        rfl
      · have hpk : (buffer.drop p).take n = bs.take n := by
          rw [hbs, take_slice (by omega)]
          rfl
        rw [List.map_cons, hmap]
        unfold RecvCall.packet
        simp only
        rw [hpk]

/-- `OnRecv` on the data `buffer[0, len)`. -/
theorem PacketSession.onRecv_of_parse {buffer t : List UInt8} {len : Nat}
    {ps : List (List UInt8)} (hlen : len ≤ buffer.length)
    (h : packetFramer.Parse (buffer.take len) ps t) :
    ∃ calls, onRecv buffer len = some (len - t.length, calls) ∧
      calls.map RecvCall.packet = ps := by
  obtain ⟨fuel, calls, hloop, hcalls⟩ := onRecvLoop_of_parse hlen h (Nat.zero_le len) rfl
  exact ⟨calls, onRecv_eq_some_iff.mpr ⟨fuel, hloop⟩, hcalls⟩

end ServerCore
