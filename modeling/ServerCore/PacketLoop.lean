/-
  File:      ServerCore/PacketLoop.lean
  Subject:   The `while (true)` of PacketSession::OnRecv, pass by pass.

  A pass takes `processLen` to the end of the packet that starts there, or breaks. The values of
  `processLen` at the head of the loop are the positions of the greedy parse (`Passes`), so the
  loop ends exactly where that parse meets no size field of zero (`packet_loop_law`).
-/
import ServerCore.Lib.Trans
import ServerCore.PacketSession

namespace ServerCore

open Seg Trans

namespace PacketSession

/-! ## 1. Passes -/

/-- One pass of the loop from `processLen` on: the next `processLen`. `none`: it breaks. -/
def pass (buffer : List UInt8) (len processLen : Nat) : Option Nat :=
  let dataSize := len - processLen
  if dataSize < sizeofPacketHeader then none
  else
    let size := PacketHeader.size (buffer.drop processLen)
    if dataSize < size then none else some (processLen + size)

/-- The values of `processLen` at the head of the loop, in `OnRecv(buffer, len)`. -/
def Passes (buffer : List UInt8) (len : Nat) : Nat → Prop :=
  Reach (fun processLen (_ : Unit) => pass buffer len processLen) always 0

/-- The loop is its passes, one after another. -/
theorem onRecvLoop_succ (buffer : List UInt8) (len fuel p : Nat) :
    onRecvLoop buffer len (fuel + 1) p =
      match pass buffer len p with
      | none => some (p, [])
      | some q => (onRecvLoop buffer len fuel q).map fun r =>
          (r.1, ⟨buffer.drop p, q - p⟩ :: r.2) := by
  rw [onRecvLoop, pass]
  dsimp only
  split
  · rfl
  · split
    · rfl
    · dsimp only
      rw [Nat.add_sub_cancel_left]

/-- A pass takes the frame that starts at `p`. -/
theorem pass_eq_frame {buffer : List UInt8} {len p : Nat} (hlen : len ≤ buffer.length)
    (hp : p ≤ len) :
    pass buffer len p = (packetFramer.frame (slice buffer p (len - p))).map (p + ·) := by
  have hl : (slice buffer p (len - p)).length = len - p := length_slice_of_le (by omega)
  show _ = (packetFrame (slice buffer p (len - p))).map (p + ·)
  unfold pass packetFrame
  rw [hl]
  dsimp only
  split
  · rfl
  · rename_i hd
    unfold sizeofPacketHeader at hd
    rw [PacketHeader.size_slice (by omega)]
    split <;> rfl

/-- What is left at `p` after a frame of `n` bytes. -/
theorem drop_rest (buffer : List UInt8) (len p n : Nat) :
    (slice buffer p (len - p)).drop n = slice buffer (p + n) (len - (p + n)) := by
  rw [drop_slice]
  congr 1
  omega

/-- **At the head of the loop the parse has come to what is left.** -/
theorem Passes.reaches {buffer : List UInt8} {len p : Nat} (hlen : len ≤ buffer.length)
    (h : Passes buffer len p) :
    p ≤ len ∧ packetFramer.Reaches (buffer.take len) (slice buffer p (len - p)) := by
  refine h.invariant (I := fun p => p ≤ len ∧
    packetFramer.Reaches (buffer.take len) (slice buffer p (len - p)))
    ⟨Nat.zero_le len, .here _⟩ ?_
  rintro p q - ⟨hp, hr⟩ - hpass
  rw [pass_eq_frame hlen hp] at hpass
  obtain ⟨n, hn, rfl⟩ := Option.map_eq_some_iff.mp hpass
  have hle := packetFramer.le_length hn
  rw [length_slice_of_le (by omega)] at hle
  refine ⟨by omega, ?_⟩
  rw [← drop_rest]
  exact hr.step hn

/-- **All that the parse comes to is left at some head of the loop.** -/
theorem passes_of_reaches {buffer bs c : List UInt8} {len : Nat} (hlen : len ≤ buffer.length)
    (h : packetFramer.Reaches bs c) : ∀ {p : Nat}, Passes buffer len p → p ≤ len →
      bs = slice buffer p (len - p) →
      ∃ q, Passes buffer len q ∧ q ≤ len ∧ c = slice buffer q (len - q) := by
  induction h with
  | here bs => exact fun {p} hpass hp hbs => ⟨p, hpass, hp, hbs⟩
  | @take bs c n hf _ ih =>
      intro p hpass hp hbs
      have hle := packetFramer.le_length hf
      rw [hbs] at hf hle
      rw [length_slice_of_le (by omega)] at hle
      refine ih (p := p + n) (.step p _ () hpass trivial ?_) (by omega) ?_
      · rw [pass_eq_frame hlen hp, hf]
        rfl
      · rw [hbs, drop_rest]

/-! ## 2. When the loop ends -/

/-- **The loop ends**, and each pass that does not break moves on. -/
structure LoopEnds (buffer : List UInt8) (len : Nat) : Prop where
  returns : ∃ fuel r, onRecvLoop buffer len fuel 0 = some r
  moves : ∀ p q, Passes buffer len p → pass buffer len p = some q → p < q

/-- A loop that ends, ends from each of its heads. -/
theorem returns_of_passes {buffer : List UInt8} {len p : Nat} (h : Passes buffer len p)
    (hr : ∃ fuel r, onRecvLoop buffer len fuel 0 = some r) :
    ∃ fuel r, onRecvLoop buffer len fuel p = some r := by
  refine h.invariant (I := fun p => ∃ fuel r, onRecvLoop buffer len fuel p = some r) hr ?_
  rintro p q - ⟨fuel, r, hp⟩ - hpass
  cases fuel with
  | zero => nomatch hp
  | succ fuel =>
      rw [onRecvLoop_succ, hpass] at hp
      obtain ⟨r', hq, -⟩ := Option.map_eq_some_iff.mp hp
      exact ⟨fuel, r', hq⟩

/-- A size field of zero, met at the head of the loop. -/
theorem exists_stuck {buffer : List UInt8} {len : Nat} (hlen : len ≤ buffer.length)
    (h : ¬ packetFramer.Positive (buffer.take len)) :
    ∃ p, Passes buffer len p ∧ pass buffer len p = some p := by
  simp only [Framer.Positive, not_forall, not_not] at h
  obtain ⟨c, hr, hzero⟩ := h
  obtain ⟨p, hpass, hp, rfl⟩ := passes_of_reaches hlen hr .start (Nat.zero_le len) rfl
  refine ⟨p, hpass, ?_⟩
  rw [pass_eq_frame hlen hp, hzero]
  rfl

/-- The loop never leaves from there. -/
theorem onRecvLoop_of_stuck {buffer : List UInt8} {len p : Nat}
    (h : pass buffer len p = some p) (fuel : Nat) : onRecvLoop buffer len fuel p = none := by
  induction fuel with
  | zero => rfl
  | succ fuel ih =>
      rw [onRecvLoop_succ, h]
      dsimp only
      rw [ih]
      rfl

/-- **When `OnRecv` terminates.** For every buffer and length, the loop ends and each pass moves on
    exactly where no size field of zero is reached; and otherwise it does not return at all. -/
theorem packet_loop_law (buffer : List UInt8) (len : Nat) (hlen : len ≤ buffer.length) :
    (LoopEnds buffer len ↔ packetFramer.Positive (buffer.take len)) ∧
      ((∃ fuel r, onRecvLoop buffer len fuel 0 = some r) ↔
        packetFramer.Positive (buffer.take len)) := by
  have hreturns : (∃ fuel r, onRecvLoop buffer len fuel 0 = some r) ↔
      packetFramer.Positive (buffer.take len) := by
    constructor
    · intro hr
      by_contra hzero
      obtain ⟨p, hpass, hstuck⟩ := exists_stuck hlen hzero
      obtain ⟨fuel, r, hp⟩ := returns_of_passes hpass hr
      rw [onRecvLoop_of_stuck hstuck] at hp
      nomatch hp
    · intro hpos
      obtain ⟨ps, t, hp⟩ := Framer.exists_parse hpos
      obtain ⟨calls, hr, -⟩ := onRecv_of_parse hlen hp
      exact ⟨_, _, hr⟩
  refine ⟨⟨fun h => hreturns.mp h.returns, fun hpos => ⟨hreturns.mpr hpos, ?_⟩⟩, hreturns⟩
  intro p q hpass hq
  obtain ⟨hp, hr⟩ := hpass.reaches hlen
  rw [pass_eq_frame hlen hp] at hq
  obtain ⟨n, hn, rfl⟩ := Option.map_eq_some_iff.mp hq
  have hne : n ≠ 0 := by
    rintro rfl
    exact hpos _ hr hn
  omega

/-- A packet and half a header end the loop; a packet and then zeros do not. -/
theorem packet_loop_law_cases :
    LoopEnds [5, 0, 1, 0, 9, 4, 0] 7 ∧ ¬ LoopEnds [5, 0, 1, 0, 9, 0, 0, 0, 0] 9 := by
  have hp : packetFramer.Parse [5, 0, 1, 0, 9, 4, 0] [[5, 0, 1, 0, 9]] [4, 0] :=
    .take (n := 5) (by decide) (by decide) (.stop (by decide))
  refine ⟨(packet_loop_law _ 7 (by decide)).1.mpr hp.positive, fun h => ?_⟩
  have hpos := (packet_loop_law _ 9 (by decide)).1.mp h
  exact hpos [0, 0, 0, 0] (.take (n := 5) (by decide) (.here _)) (by decide)

/-- Four bytes of zero: the loop takes a packet of no bytes again and again. -/
theorem packet_loop_hangs :
    pass [0, 0, 0, 0] 4 0 = some 0 ∧ (∀ fuel, onRecvLoop [0, 0, 0, 0] 4 fuel 0 = none) ∧
      ¬ LoopEnds [0, 0, 0, 0] 4 := by
  have hstuck : pass [0, 0, 0, 0] 4 0 = some 0 := by decide
  refine ⟨hstuck, onRecvLoop_of_stuck hstuck, fun h => ?_⟩
  exact Nat.lt_irrefl 0 (h.moves 0 0 .start hstuck)

end PacketSession

end ServerCore
