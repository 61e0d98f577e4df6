/-
  File:      ServerCore/Lib/Seg.lean
  Subject:   Segments of a list read as memory: reading a range, overwriting a range.

  * `slice l i n` is the range `[i, i + n)` of `l`; `splice l i d` is `l` with the range
    `[i, i + d.length)` overwritten by `d`; `patch z l i d` is the same write to a file, which
    grows: a gap before `i` is filled with `z`.
  * `AgreesOn f l S`: the file `l` agrees with `f` on the positions `S` written so far.
  * `covered_iff_blocks`: ranges that begin at multiples of a block size cover `[0, n)` just when
    each block has a range that begins in front of it and reaches its end.
  * Every lemma says what a read sees after a write: the written range (`slice_splice_self`),
    a range apart from it (`slice_splice_of_disjoint`), one position (`getElem?_splice`,
    `getElem?_patch`).
-/
import Mathlib.Data.List.Basic

namespace Seg

variable {α : Type _}

/-! ## 1. Reading a range -/

/-- The `n` elements from position `i` on (fewer, where the list ends before). -/
def slice (l : List α) (i n : Nat) : List α := (l.drop i).take n

theorem length_slice (l : List α) (i n : Nat) : (slice l i n).length = min n (l.length - i) := by
  simp [slice]

theorem length_slice_of_le {l : List α} {i n : Nat} (h : i + n ≤ l.length) :
    (slice l i n).length = n := by
  rw [length_slice]
  omega

theorem getElem?_slice (l : List α) (i n j : Nat) :
    (slice l i n)[j]? = if j < n then l[i + j]? else none := by
  unfold slice
  rw [List.getElem?_take]
  split
  · rw [List.getElem?_drop]
  · rfl

@[simp] theorem slice_zero (l : List α) (i : Nat) : slice l i 0 = [] := by
  simp [slice]

/-- **Two adjacent ranges are one range.** -/
theorem slice_append_slice (l : List α) (i n m : Nat) :
    slice l i n ++ slice l (i + n) m = slice l i (n + m) := by
  unfold slice
  rw [← List.drop_drop, ← List.take_add]

theorem take_slice {l : List α} {i n k : Nat} (h : k ≤ n) : (slice l i n).take k = slice l i k := by
  unfold slice
  rw [List.take_take, Nat.min_eq_left h]

/-- A range inside a prefix. -/
theorem slice_of_take {l : List α} {i n k : Nat} (h : i + n ≤ k) :
    slice (l.take k) i n = slice l i n := by
  unfold slice
  rw [List.drop_take, List.take_take, Nat.min_eq_left (by omega)]

theorem drop_slice (l : List α) (i n k : Nat) :
    (slice l i n).drop k = slice l (i + k) (n - k) := by
  unfold slice
  rw [List.drop_take, List.drop_drop]

/-! ## 2. Overwriting a range -/

/-- `l` with the range `[i, i + d.length)` overwritten by `d`. -/
def splice (l : List α) (i : Nat) (d : List α) : List α :=
  l.take i ++ d ++ l.drop (i + d.length)

theorem length_splice {l : List α} {i : Nat} {d : List α} (h : i + d.length ≤ l.length) :
    (splice l i d).length = l.length := by
  simp only [splice, List.length_append, List.length_take, List.length_drop]
  omega

/-- A write never shortens. -/
theorem le_length_splice (l : List α) (i : Nat) (d : List α) :
    l.length ≤ (splice l i d).length := by
  simp only [splice, List.length_append, List.length_take, List.length_drop]
  omega

/-- **One position after a write**: the written element inside the range, the old one outside. -/
theorem getElem?_splice {l : List α} {i : Nat} {d : List α} (h : i + d.length ≤ l.length)
    (j : Nat) :
    (splice l i d)[j]? = if i ≤ j ∧ j < i + d.length then d[j - i]? else l[j]? := by
  have hi : (l.take i).length = i := by
    rw [List.length_take]
    omega
  unfold splice
  rw [List.append_assoc]
  by_cases h1 : j < i
  · rw [List.getElem?_append_left (by omega), List.getElem?_take, if_pos h1, if_neg (by omega)]
  · rw [List.getElem?_append_right (by omega), hi]
    by_cases h2 : j < i + d.length
    · rw [List.getElem?_append_left (by omega), if_pos ⟨by omega, h2⟩]
    · rw [List.getElem?_append_right (by omega), List.getElem?_drop, if_neg (by omega)]
      congr 1
      omega

/-- **A read of the written range sees what was written.** -/
theorem slice_splice_self {l : List α} {i : Nat} {d : List α} (h : i + d.length ≤ l.length) :
    slice (splice l i d) i d.length = d := by
  apply List.ext_getElem?
  intro j
  rw [getElem?_slice, getElem?_splice h]
  by_cases hj : j < d.length
  · rw [if_pos hj, if_pos ⟨by omega, by omega⟩, Nat.add_sub_cancel_left]
  · rw [if_neg hj, List.getElem?_eq_none (by omega)]

/-- **A read apart from the written range sees what was there.** -/
theorem slice_splice_of_disjoint {l : List α} {i : Nat} {d : List α} {j n : Nat}
    (h : i + d.length ≤ l.length) (hd : j + n ≤ i ∨ i + d.length ≤ j) :
    slice (splice l i d) j n = slice l j n := by
  apply List.ext_getElem?
  intro k
  rw [getElem?_slice, getElem?_slice]
  by_cases hk : k < n
  · rw [if_pos hk, if_pos hk, getElem?_splice h, if_neg (by omega)]
  · rw [if_neg hk, if_neg hk]

/-- **A write inside a range** is that write to the range. -/
theorem slice_splice_inside {l : List α} {i n j : Nat} {d : List α} (h : j + d.length ≤ n)
    (hl : i + n ≤ l.length) : slice (splice l (i + j) d) i n = splice (slice l i n) j d := by
  have hslice := length_slice_of_le hl
  apply List.ext_getElem?
  intro k
  rw [getElem?_slice, getElem?_splice (by omega), getElem?_splice (by omega), getElem?_slice]
  by_cases hk : k < n
  · rw [if_pos hk, if_pos hk, show i + k - (i + j) = k - j by omega]
    by_cases hin : j ≤ k ∧ k < j + d.length
    · rw [if_pos hin, if_pos (by omega)]
    · rw [if_neg hin, if_neg (by omega)]
  · rw [if_neg hk, if_neg hk, if_neg (by omega)]

/-! ## 3. Writing to a file -/

/-- `l` grown to at least `n` elements with `z`. -/
def grow (z : α) (l : List α) (n : Nat) : List α := l ++ List.replicate (n - l.length) z

/-- A write of `d` at position `i` of a file: the file grows where the write ends past its end,
    and a gap before `i` reads `z`. -/
def patch (z : α) (l : List α) (i : Nat) (d : List α) : List α :=
  splice (grow z l (i + d.length)) i d

theorem length_grow (z : α) (l : List α) (n : Nat) : (grow z l n).length = max l.length n := by
  simp only [grow, List.length_append, List.length_replicate]
  omega

theorem grow_of_le {z : α} {l : List α} {n : Nat} (h : n ≤ l.length) : grow z l n = l := by
  simp [grow, Nat.sub_eq_zero_of_le h]

theorem length_patch (z : α) (l : List α) (i : Nat) (d : List α) :
    (patch z l i d).length = max l.length (i + d.length) := by
  unfold patch
  rw [length_splice (by rw [length_grow]; omega), length_grow]

/-- A read of the range written to a file sees what was written. -/
theorem slice_patch_self (z : α) (l : List α) (i : Nat) (d : List α) :
    slice (patch z l i d) i d.length = d :=
  slice_splice_self (by rw [length_grow]; omega)

/-- A write inside the file is an overwrite. -/
theorem patch_of_le {z : α} {l : List α} {i : Nat} {d : List α} (h : i + d.length ≤ l.length) :
    patch z l i d = splice l i d := by
  unfold patch
  rw [grow_of_le h]

/-- One position of a file after a write inside it. -/
theorem getElem?_patch {z : α} {l : List α} {i : Nat} {d : List α} (h : i + d.length ≤ l.length)
    (j : Nat) :
    (patch z l i d)[j]? = if i ≤ j ∧ j < i + d.length then d[j - i]? else l[j]? := by
  rw [patch_of_le h, getElem?_splice h]

/-! ## 4. Filling a file piece by piece -/

/-- `l` is as long as `f` and agrees with it at the positions of `S`. -/
structure AgreesOn (f l : List α) (S : Nat → Prop) : Prop where
  length : l.length = f.length
  agrees : ∀ j, S j → l[j]? = f[j]?

/-- **A range of `f` written at its place** adds its positions, whatever was there: so ranges may
    come in any order and again. -/
theorem AgreesOn.patch_slice {f l : List α} {S : Nat → Prop} (h : AgreesOn f l S) (z : α)
    {i n : Nat} (hi : i ≤ f.length) :
    AgreesOn f (patch z l i (slice f i n)) fun j => S j ∨ (i ≤ j ∧ j < i + n) := by
  have hd : (slice f i n).length = min n (f.length - i) := length_slice f i n
  have hl := h.length
  have hfit : i + (slice f i n).length ≤ l.length := by omega
  constructor
  · rw [length_patch]
    omega
  · intro j hj
    rw [getElem?_patch hfit]
    by_cases hin : i ≤ j ∧ j < i + (slice f i n).length
    · rw [if_pos hin, getElem?_slice, if_pos (by omega), show i + (j - i) = j by omega]
    · rw [if_neg hin]
      rcases hj with hj | hj
      · exact h.agrees j hj
      · rw [List.getElem?_eq_none (by omega), List.getElem?_eq_none (by omega)]

/-- The same for a range written over a part of `l`. -/
theorem AgreesOn.splice_slice {f l : List α} {S : Nat → Prop} (h : AgreesOn f l S) {i n : Nat}
    (hi : i + n ≤ f.length) :
    AgreesOn f (splice l i (slice f i n)) fun j => S j ∨ (i ≤ j ∧ j < i + n) := by
  have hl := h.length
  have hd : (slice f i n).length = n := length_slice_of_le hi
  constructor
  · rw [length_splice (by omega), hl]
  · intro j hj
    rw [getElem?_splice (by omega), hd]
    by_cases hin : i ≤ j ∧ j < i + n
    · rw [if_pos hin, getElem?_slice, if_pos (by omega), show i + (j - i) = j by omega]
    · rw [if_neg hin]
      exact h.agrees j (hj.resolve_right hin)

/-- Once every position is written, the file is `f`. -/
theorem AgreesOn.eq {f l : List α} {S : Nat → Prop} (h : AgreesOn f l S)
    (hall : ∀ j, j < f.length → S j) : l = f := by
  apply List.ext_getElem?
  intro j
  by_cases hj : j < f.length
  · exact h.agrees j (hall j hj)
  · rw [List.getElem?_eq_none (h.length ▸ Nat.not_lt.mp hj),
      List.getElem?_eq_none (Nat.not_lt.mp hj)]

/-! ## 5. Covering by blocks -/

variable {β : Type _}

/-- **Ranges that begin at multiples of `b` cover `[0, n)`** just when each block of `b` positions
    has one that begins no later than the block and reaches its end, or the end of all. -/
theorem covered_iff_blocks {P : β → Prop} {off len : β → Nat} {b n : Nat} (hb : 0 < b)
    (hoff : ∀ c, P c → b ∣ off c) :
    (∀ j < n, ∃ c, P c ∧ off c ≤ j ∧ j < off c + len c) ↔
      ∀ k, b * k < n → ∃ c, P c ∧ off c ≤ b * k ∧ min (b * (k + 1)) n ≤ off c + len c := by
  constructor
  · intro h k hk
    -- the last position of the block is covered from in front of the block
    have hsucc : b * (k + 1) = b * k + b := Nat.mul_succ b k
    obtain ⟨c, hc, hle, hlt⟩ := h (min (b * (k + 1)) n - 1) (by omega)
    refine ⟨c, hc, ?_, by omega⟩
    obtain ⟨m, hm⟩ := hoff c hc
    rw [hm]
    refine Nat.mul_le_mul_left b (Nat.le_of_lt_succ (Nat.lt_of_mul_lt_mul_left (a := b) ?_))
    rw [← hm, Nat.succ_eq_add_one]
    omega
  · intro h j hj
    have hmod := Nat.div_add_mod j b
    have hlt := Nat.mod_lt j hb
    obtain ⟨c, hc, hle, hend⟩ := h (j / b) (by omega)
    have hsucc : b * (j / b + 1) = b * (j / b) + b := Nat.mul_succ b (j / b)
    exact ⟨c, hc, by omega, by omega⟩

end Seg
