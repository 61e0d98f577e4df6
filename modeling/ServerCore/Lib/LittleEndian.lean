/-
  File:      ServerCore/Lib/LittleEndian.lean
  Subject:   Unsigned fields of a byte memory, least significant byte first.

  `le w n` are the `w` bytes of `n` (reduced modulo `256 ^ w`), `unLe` reads bytes back.
  `readLe p off w` and `writeLe p off w n` are the field of width `w` at offset `off` of the
  memory `p`; a read of a field just written gives the value modulo the field's range
  (`readLe_writeLe`), a read of a field apart from it what was there
  (`readLe_writeLe_of_disjoint`).
-/
import Mathlib.Algebra.Group.Nat.Defs
import ServerCore.Lib.Seg

namespace LittleEndian

open Seg

/-- The `w` low bytes of `n`, least significant first. -/
def le : Nat → Nat → List UInt8
  | 0, _ => []
  | w + 1, n => UInt8.ofNat n :: le w (n / 256)

/-- The number some bytes spell, least significant first. -/
def unLe : List UInt8 → Nat
  | [] => 0
  | b :: bs => b.toNat + 256 * unLe bs

@[simp] theorem length_le (w n : Nat) : (le w n).length = w := by
  induction w generalizing n with
  | zero => rfl
  | succ w ih => simp [le, ih]

/-- **Reading back what was written**: the value modulo the range of the field. -/
theorem unLe_le (w n : Nat) : unLe (le w n) = n % 256 ^ w := by
  induction w generalizing n with
  | zero => simp [le, unLe, Nat.mod_one]
  | succ w ih =>
      have hb : (UInt8.ofNat n).toNat = n % 256 := UInt8.toNat_ofNat'
      rw [le, unLe, ih, hb, Nat.pow_succ', Nat.mod_mul]

theorem unLe_lt (bs : List UInt8) : unLe bs < 256 ^ bs.length := by
  induction bs with
  | nil => simp [unLe]
  | cons b bs ih =>
      have hb : b.toNat < 256 := b.toNat_lt
      rw [unLe, List.length_cons, Nat.pow_succ']
      omega

/-- **Writing what was read** gives the bytes back. -/
theorem le_unLe (bs : List UInt8) : le bs.length (unLe bs) = bs := by
  induction bs with
  | nil => rfl
  | cons b bs ih =>
      have hb : b.toNat < 256 := b.toNat_lt
      rw [List.length_cons, le, unLe, Nat.add_mul_div_left _ _ (by decide),
        Nat.div_eq_of_lt hb, Nat.zero_add, ih]
      congr 1
      apply UInt8.toNat.inj
      rw [UInt8.toNat_ofNat', Nat.add_mul_mod_self_left, Nat.mod_eq_of_lt hb]

/-- The field of `w` bytes at offset `off` of the memory `p`. -/
def readLe (p : List UInt8) (off w : Nat) : Nat := unLe (slice p off w)

/-- The memory `p` with the field of `w` bytes at offset `off` set to `n`. -/
def writeLe (p : List UInt8) (off w n : Nat) : List UInt8 := splice p off (le w n)

theorem readLe_lt (p : List UInt8) (off w : Nat) : readLe p off w < 256 ^ w := by
  have h := unLe_lt (slice p off w)
  have hw : (slice p off w).length ≤ w := by
    rw [length_slice]
    omega
  exact Nat.lt_of_lt_of_le h (Nat.pow_le_pow_right (by omega) hw)

/-- A field inside the first `n` bytes. -/
theorem readLe_take {p : List UInt8} {n off w : Nat} (h : off + w ≤ n) :
    readLe (p.take n) off w = readLe p off w := by
  unfold readLe slice
  rw [List.drop_take, List.take_take, Nat.min_eq_left (by omega)]

theorem le_readLe {p : List UInt8} {off w : Nat} (h : off + w ≤ p.length) :
    le w (readLe p off w) = slice p off w := by
  have e := le_unLe (slice p off w)
  rwa [length_slice_of_le h] at e

theorem length_writeLe {p : List UInt8} {off w n : Nat} (h : off + w ≤ p.length) :
    (writeLe p off w n).length = p.length :=
  length_splice (by rw [length_le]; exact h)

theorem readLe_writeLe {p : List UInt8} {off w n : Nat} (h : off + w ≤ p.length) :
    readLe (writeLe p off w n) off w = n % 256 ^ w := by
  have e : slice (splice p off (le w n)) off (le w n).length = le w n :=
    slice_splice_self (by rw [length_le]; exact h)
  rw [length_le] at e
  unfold readLe writeLe
  rw [e, unLe_le]

theorem readLe_writeLe_of_disjoint {p : List UInt8} {off w n off' w' : Nat}
    (h : off + w ≤ p.length) (hd : off' + w' ≤ off ∨ off + w ≤ off') :
    readLe (writeLe p off w n) off' w' = readLe p off' w' := by
  unfold readLe writeLe
  rw [slice_splice_of_disjoint (by rw [length_le]; exact h) (by rw [length_le]; exact hd)]

end LittleEndian
