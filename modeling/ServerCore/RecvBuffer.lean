/-
  File:      ServerCore/RecvBuffer.lean
  Subject:   RecvBuffer (RecvBuffer.h, RecvBuffer.cpp): the linear receive buffer of a session.

  The buffer is one vector of `_capacity` bytes; the unread bytes are its range
  `[_readPos, _writePos)`, new bytes are stored from `_writePos` on. Nothing wraps around:
  `Clean` resets both positions when nothing is unread, and moves the unread bytes to the front
  when less than `_bufferSize` bytes are free behind them.

  * `RecvBuffer.Wf`: the positions stay ordered inside the vector.
  * `onWrite_spec`, `onRead_spec`, `clean_spec`: what each operation does to `unread`. `Clean`
    keeps it, and its memcpy is defined, as long as at most four `_bufferSize` are unread.
-/
import ServerCore.Lib.Seg

namespace ServerCore

open Seg

/-- `RecvBuffer`: the vector and its int32 counters. -/
structure RecvBuffer where
  capacity : Int
  bufferSize : Int
  readPos : Int
  writePos : Int
  buffer : List UInt8

namespace RecvBuffer

/-! ## 1. The operations -/

/-- `BUFFER_COUNT` -/
def bufferCount : Int := 10

/-- The constructor: ten times the size asked for, zero-filled. -/
def new (bufferSize : Int) : RecvBuffer where
  capacity := bufferSize * bufferCount
  bufferSize := bufferSize
  readPos := 0
  writePos := 0
  buffer := List.replicate (bufferSize * bufferCount).toNat 0

/-- `DataSize()` -/
def dataSize (b : RecvBuffer) : Int := b.writePos - b.readPos

/-- `FreeSize()` -/
def freeSize (b : RecvBuffer) : Int := b.capacity - b.writePos

/-- `::memcpy(&buf[dst], &buf[src], n)`. `none` is undefined behaviour: a range outside the
    vector, or two ranges that overlap. -/
def memcpy (buf : List UInt8) (dst src n : Nat) : Option (List UInt8) :=
  if dst + n ≤ buf.length ∧ src + n ≤ buf.length ∧ (dst + n ≤ src ∨ src + n ≤ dst) then
    some (splice buf dst (slice buf src n))
  else none

/-- `Clean()` -/
def clean (b : RecvBuffer) : Option RecvBuffer :=
  if b.dataSize = 0 then some { b with readPos := 0, writePos := 0 }
  else if b.freeSize < b.bufferSize then
    (memcpy b.buffer 0 b.readPos.toNat b.dataSize.toNat).map fun buf =>
      { b with buffer := buf, readPos := 0, writePos := b.dataSize }
  else some b

/-- `OnRead(numOfBytes)`: the result and the buffer after the call. -/
def onRead (b : RecvBuffer) (numOfBytes : Int) : Bool × RecvBuffer :=
  if numOfBytes > b.dataSize then (false, b)
  else (true, { b with readPos := b.readPos + numOfBytes })

/-- `OnWrite(numOfBytes)`: the result and the buffer after the call. -/
def onWrite (b : RecvBuffer) (numOfBytes : Int) : Bool × RecvBuffer :=
  if numOfBytes > b.freeSize then (false, b)
  else (true, { b with writePos := b.writePos + numOfBytes })

/-- Bytes stored in the vector from position `pos` on, as a completed read leaves them. -/
def store (b : RecvBuffer) (pos : Nat) (bytes : List UInt8) : RecvBuffer :=
  { b with buffer := splice b.buffer pos bytes }

/-- The memory at `ReadPos()`, up to the end of the vector. -/
def readMem (b : RecvBuffer) : List UInt8 := b.buffer.drop b.readPos.toNat

/-- The unread bytes `[_readPos, _writePos)`. -/
def unread (b : RecvBuffer) : List UInt8 := slice b.buffer b.readPos.toNat b.dataSize.toNat

theorem take_readMem (b : RecvBuffer) : b.readMem.take b.dataSize.toNat = b.unread := rfl

/-! ## 2. The positions stay ordered inside the vector -/

/-- **The invariant of a receive buffer.** -/
structure Wf (b : RecvBuffer) : Prop where
  sizePos : 0 < b.bufferSize
  capacityEq : b.capacity = b.bufferSize * 10
  lengthEq : (b.buffer.length : Int) = b.capacity
  readNonneg : 0 ≤ b.readPos
  readLe : b.readPos ≤ b.writePos
  writeLe : b.writePos ≤ b.capacity

theorem wf_new {bufferSize : Int} (h : 0 < bufferSize) : (new bufferSize).Wf where
  sizePos := h
  capacityEq := rfl
  lengthEq := by
    simp only [new, List.length_replicate, bufferCount]
    omega
  readNonneg := Int.le_refl 0
  readLe := Int.le_refl 0
  writeLe := by
    simp only [new, bufferCount]
    omega

@[simp] theorem unread_new (bufferSize : Int) : (new bufferSize).unread = [] := by
  simp [unread, new, dataSize]

theorem length_unread {b : RecvBuffer} (h : b.Wf) : (b.unread.length : Int) = b.dataSize := by
  have h1 := h.lengthEq
  have h2 := h.readLe
  have h3 := h.writeLe
  have h4 := h.readNonneg
  unfold unread dataSize
  rw [length_slice_of_le (by omega)]
  omega

/-- A read leaves the positions alone, and the length where what it stores fits. -/
theorem Wf.store {b : RecvBuffer} (h : b.Wf) {pos : Nat} {bytes : List UInt8}
    (hfit : ((pos + bytes.length : Nat) : Int) ≤ b.capacity) : (b.store pos bytes).Wf := by
  have hl := h.lengthEq
  refine ⟨h.sizePos, h.capacityEq, ?_, h.readNonneg, h.readLe, h.writeLe⟩
  show ((splice b.buffer pos bytes).length : Int) = b.capacity
  rw [length_splice (by omega)]
  exact hl

/-- What an `OnWrite` that succeeds does. -/
theorem onWrite_eq_true {b b' : RecvBuffer} {n : Int} (h : b.onWrite n = (true, b')) :
    n ≤ b.freeSize ∧ b' = { b with writePos := b.writePos + n } := by
  unfold onWrite at h
  split at h
  · cases h
  · cases h
    exact ⟨by omega, rfl⟩

/-- An `OnWrite` that succeeds takes what stands behind the unread bytes for received. -/
theorem unread_onWrite {b b' : RecvBuffer} (h : b.Wf) {n : Nat} (hw : b.onWrite n = (true, b')) :
    b'.unread = b.unread ++ slice b.buffer b.writePos.toNat n := by
  have h2 := h.readLe
  have h4 := h.readNonneg
  obtain ⟨-, rfl⟩ := onWrite_eq_true hw
  unfold unread dataSize
  simp only
  have e : (b.writePos + n - b.readPos).toNat = (b.writePos - b.readPos).toNat + n := by omega
  have ew : b.readPos.toNat + (b.writePos - b.readPos).toNat = b.writePos.toNat := by omega
  rw [e, ← slice_append_slice, ew]

/-- What an `OnRead` that succeeds does. -/
theorem onRead_eq_true {b b' : RecvBuffer} {n : Int} (h : b.onRead n = (true, b')) :
    n ≤ b.dataSize ∧ b' = { b with readPos := b.readPos + n } := by
  unfold onRead at h
  split at h
  · cases h
  · cases h
    exact ⟨by omega, rfl⟩

theorem Wf.onWrite {b b' : RecvBuffer} (h : b.Wf) {n : Nat} (hw : b.onWrite n = (true, b')) :
    b'.Wf := by
  have h2 := h.readLe
  obtain ⟨hfit, rfl⟩ := onWrite_eq_true hw
  unfold RecvBuffer.freeSize at hfit
  exact ⟨h.sizePos, h.capacityEq, h.lengthEq, h.readNonneg, by simp only; omega,
    by simp only; omega⟩

theorem Wf.onRead {b b' : RecvBuffer} (h : b.Wf) {n : Nat} (hr : b.onRead n = (true, b')) :
    b'.Wf := by
  have h4 := h.readNonneg
  obtain ⟨hfit, rfl⟩ := onRead_eq_true hr
  unfold RecvBuffer.dataSize at hfit
  exact ⟨h.sizePos, h.capacityEq, h.lengthEq, by simp only; omega, by simp only; omega,
    h.writeLe⟩

/-- `Clean` keeps the invariant wherever its memcpy is defined, and an empty unread range is then
    at the front. -/
theorem Wf.clean {b b' : RecvBuffer} (h : b.Wf) (hc : b.clean = some b') :
    b'.Wf ∧ b'.capacity = b.capacity ∧ b'.bufferSize = b.bufferSize ∧
      (b'.dataSize = 0 → b'.writePos = 0) := by
  have h2 := h.readLe
  have h3 := h.writeLe
  have h4 := h.readNonneg
  unfold RecvBuffer.clean at hc
  split at hc
  · cases hc
    exact ⟨⟨h.sizePos, h.capacityEq, h.lengthEq, Int.le_refl 0, Int.le_refl 0,
      by simp only; omega⟩, rfl, rfl, fun _ => rfl⟩
  · rename_i hd
    split at hc
    · obtain ⟨buf, hm, rfl⟩ := Option.map_eq_some_iff.mp hc
      unfold memcpy at hm
      split at hm
      · rename_i hfit
        cases hm
        have hl : (slice b.buffer b.readPos.toNat b.dataSize.toNat).length = b.dataSize.toNat :=
          length_slice_of_le hfit.2.1
        unfold dataSize at hd hl hfit ⊢
        refine ⟨⟨h.sizePos, h.capacityEq, ?_, Int.le_refl 0, ?_, ?_⟩, rfl, rfl, ?_⟩
        · simp only
          rw [length_splice (by rw [hl]; exact hfit.1)]
          exact h.lengthEq
        · simp only
          omega
        · simp only
          omega
        · simp only
          omega
      · cases hm
    · cases hc
      exact ⟨h, rfl, rfl, fun h0 => absurd h0 hd⟩

/-! ## 3. What the operations do to the unread bytes -/

/-- **A completed read appends what it stored**, when it fits in the free space. -/
theorem onWrite_spec {b : RecvBuffer} (h : b.Wf) {bytes : List UInt8}
    (hfit : (bytes.length : Int) ≤ b.freeSize) :
    ∃ b', (b.store b.writePos.toNat bytes).onWrite bytes.length = (true, b') ∧ b'.Wf ∧
      b'.unread = b.unread ++ bytes ∧ b'.bufferSize = b.bufferSize := by
  have h1 := h.lengthEq
  have h2 := h.readLe
  have h3 := h.writeLe
  have h4 := h.readNonneg
  have hfree : (bytes.length : Int) ≤ (b.store b.writePos.toNat bytes).freeSize := hfit
  unfold freeSize at hfit
  have hle : b.writePos.toNat + bytes.length ≤ b.buffer.length := by omega
  have hwf : (b.store b.writePos.toNat bytes).Wf := h.store (by omega)
  obtain ⟨b', hw⟩ : ∃ b', (b.store b.writePos.toNat bytes).onWrite bytes.length = (true, b') :=
    ⟨_, if_neg (by omega)⟩
  refine ⟨b', hw, hwf.onWrite hw, ?_, by rw [(onWrite_eq_true hw).2]; rfl⟩
  -- the unread range is now the old one, which the write did not touch, and the stored one
  have hun : (b.store b.writePos.toNat bytes).unread = b.unread :=
    slice_splice_of_disjoint hle (Or.inl (by unfold dataSize store; simp only; omega))
  have hnew : slice (splice b.buffer b.writePos.toNat bytes) b.writePos.toNat bytes.length
      = bytes := slice_splice_self hle
  rw [unread_onWrite hwf hw, hun]
  exact congrArg (b.unread ++ ·) hnew

/-- **`OnRead` drops the oldest bytes.** -/
theorem onRead_spec {b : RecvBuffer} (h : b.Wf) {n : Int} (hn : 0 ≤ n) (hle : n ≤ b.dataSize) :
    ∃ b', b.onRead n = (true, b') ∧ b'.Wf ∧ b'.unread = b.unread.drop n.toNat ∧
      b'.bufferSize = b.bufferSize := by
  have h4 := h.readNonneg
  have hr : b.onRead n = (true, { b with readPos := b.readPos + n }) := if_neg (by omega)
  unfold dataSize at hle
  refine ⟨_, hr, ⟨h.sizePos, h.capacityEq, h.lengthEq, by simp only; omega, by simp only; omega,
    h.writeLe⟩, ?_, rfl⟩
  unfold unread dataSize
  simp only
  rw [drop_slice]
  congr 1 <;> omega

/-- **`Clean` keeps the unread bytes** as long as at most four `_bufferSize` are unread: its
    memcpy then moves them to the front without overlap. Afterwards at least `_bufferSize`
    bytes are free. -/
theorem clean_spec {b : RecvBuffer} (h : b.Wf) (hfew : b.dataSize ≤ 4 * b.bufferSize) :
    ∃ b', b.clean = some b' ∧ b'.Wf ∧ b'.unread = b.unread ∧ b'.bufferSize = b.bufferSize ∧
      b.bufferSize ≤ b'.freeSize := by
  have h0 := h.sizePos
  have hc := h.capacityEq
  have h1 := h.lengthEq
  have h2 := h.readLe
  have h3 := h.writeLe
  have h4 := h.readNonneg
  suffices hs : ∃ b', b.clean = some b' ∧ b'.unread = b.unread ∧ b.bufferSize ≤ b'.freeSize by
    obtain ⟨b', hb', hun, hfree⟩ := hs
    obtain ⟨hwf, -, hsize, -⟩ := h.clean hb'
    exact ⟨b', hb', hwf, hun, hsize, hfree⟩
  unfold clean
  by_cases hd : b.dataSize = 0
  · rw [if_pos hd]
    refine ⟨_, rfl, ?_, ?_⟩
    · unfold unread
      rw [hd]
      simp [dataSize]
    · simp only [freeSize]
      omega
  · rw [if_neg hd]
    by_cases hf : b.freeSize < b.bufferSize
    · -- little is free behind the unread bytes, so they start past four `_bufferSize`
      rw [if_pos hf]
      unfold freeSize at hf
      unfold dataSize at hfew hd ⊢
      have hsrc : b.readPos.toNat + (b.writePos - b.readPos).toNat ≤ b.buffer.length := by omega
      have hdst : 0 + (slice b.buffer b.readPos.toNat (b.writePos - b.readPos).toNat).length
          ≤ b.buffer.length := by
        rw [length_slice_of_le hsrc]
        omega
      have hm : memcpy b.buffer 0 b.readPos.toNat (b.writePos - b.readPos).toNat
          = some (splice b.buffer 0
              (slice b.buffer b.readPos.toNat (b.writePos - b.readPos).toNat)) := by
        unfold memcpy
        rw [if_pos ⟨by omega, hsrc, Or.inl (by omega)⟩]
      rw [hm]
      refine ⟨_, rfl, ?_, ?_⟩
      · unfold unread dataSize
        simp only
        have hs := slice_splice_self hdst
        rw [length_slice_of_le hsrc] at hs
        rw [Int.sub_zero]
        exact hs
      · simp only [freeSize]
        omega
    · rw [if_neg hf]
      exact ⟨b, rfl, rfl, by omega⟩

/-! ## 4. Two buffers with the same bytes in use -/

/-- The buffers have the same sizes and positions, and the same bytes before `k`. -/
structure SameBelow (k : Nat) (b b' : RecvBuffer) : Prop where
  capacity : b.capacity = b'.capacity
  bufferSize : b.bufferSize = b'.bufferSize
  readPos : b.readPos = b'.readPos
  writePos : b.writePos = b'.writePos
  length : b.buffer.length = b'.buffer.length
  bytes : b.buffer.take k = b'.buffer.take k

namespace SameBelow

variable {k : Nat} {b b' : RecvBuffer}

theorem dataSize (h : SameBelow k b b') : b.dataSize = b'.dataSize := by
  unfold RecvBuffer.dataSize
  rw [h.writePos, h.readPos]

theorem freeSize (h : SameBelow k b b') : b.freeSize = b'.freeSize := by
  unfold RecvBuffer.freeSize
  rw [h.capacity, h.writePos]

theorem mono (h : SameBelow k b b') {m : Nat} (hm : m ≤ k) : SameBelow m b b' where
  capacity := h.capacity
  bufferSize := h.bufferSize
  readPos := h.readPos
  writePos := h.writePos
  length := h.length
  bytes := by
    have e := congrArg (List.take m) h.bytes
    rw [List.take_take, List.take_take, Nat.min_eq_left hm] at e
    exact e

/-- A range below `k` holds the same bytes. -/
theorem slice_eq (h : SameBelow k b b') {p n : Nat} (hle : p + n ≤ k) :
    slice b.buffer p n = slice b'.buffer p n := by
  have hcut : ∀ l : List UInt8, slice (l.take k) p n = slice l p n := by
    intro l
    unfold slice
    rw [List.drop_take, List.take_take, Nat.min_eq_left (by omega)]
  rw [← hcut b.buffer, ← hcut b'.buffer, h.bytes]

/-- The same bytes stored at the same place below `k`. -/
theorem store (h : SameBelow k b b') (pos : Nat) (bytes : List UInt8) (hk : pos ≤ k)
    (hfit : pos + bytes.length ≤ b.buffer.length) :
    SameBelow (pos + bytes.length) (b.store pos bytes) (b'.store pos bytes) where
  capacity := h.capacity
  bufferSize := h.bufferSize
  readPos := h.readPos
  writePos := h.writePos
  length := by
    show (splice b.buffer pos bytes).length = (splice b'.buffer pos bytes).length
    rw [length_splice hfit, length_splice (by rw [← h.length]; exact hfit)]
    exact h.length
  bytes := by
    have hcut : ∀ l : List UInt8, pos + bytes.length ≤ l.length →
        (splice l pos bytes).take (pos + bytes.length) = l.take pos ++ bytes := by
      intro l hl
      unfold splice
      rw [List.take_left' (by rw [List.length_append, List.length_take]; omega)]
    show (splice b.buffer pos bytes).take _ = (splice b'.buffer pos bytes).take _
    rw [hcut _ hfit, hcut _ (by rw [← h.length]; exact hfit), (h.mono hk).bytes]

theorem onWrite (h : SameBelow k b b') (n : Nat) :
    (b.onWrite n).1 = (b'.onWrite n).1 ∧ SameBelow k (b.onWrite n).2 (b'.onWrite n).2 := by
  unfold RecvBuffer.onWrite
  rw [h.freeSize]
  split
  · exact ⟨rfl, h⟩
  · exact ⟨rfl, h.capacity, h.bufferSize, h.readPos, congrArg (· + (n : Int)) h.writePos,
      h.length, h.bytes⟩

theorem onRead (h : SameBelow k b b') (n : Nat) :
    (b.onRead n).1 = (b'.onRead n).1 ∧ SameBelow k (b.onRead n).2 (b'.onRead n).2 := by
  unfold RecvBuffer.onRead
  rw [h.dataSize]
  split
  · exact ⟨rfl, h⟩
  · exact ⟨rfl, h.capacity, h.bufferSize, congrArg (· + (n : Int)) h.readPos, h.writePos,
      h.length, h.bytes⟩

/-- `Clean` moves the same bytes to the same place. -/
theorem clean (h : SameBelow k b b') (hwf : b.Wf) (hk : b.writePos.toNat ≤ k) :
    Option.Rel (fun a a' => SameBelow a.writePos.toNat a a') b.clean b'.clean := by
  have h2 := hwf.readLe
  have h4 := hwf.readNonneg
  have hrange : b.readPos.toNat + b.dataSize.toNat ≤ k := by
    unfold RecvBuffer.dataSize
    omega
  have hsl := h.slice_eq hrange
  unfold RecvBuffer.clean
  rw [← h.dataSize, ← h.freeSize, ← h.bufferSize, ← h.readPos]
  split
  · exact .some ⟨h.capacity, rfl, rfl, rfl, h.length, (h.mono (Nat.zero_le k)).bytes⟩
  · split
    · unfold memcpy
      rw [← h.length, ← hsl]
      split
      · rename_i hfit
        have hl := length_slice_of_le hfit.2.1
        have hst := h.store 0 (slice b.buffer b.readPos.toNat b.dataSize.toNat)
          (Nat.zero_le k) (by rw [hl]; exact hfit.1)
        refine .some ⟨h.capacity, rfl, rfl, rfl, hst.length, ?_⟩
        have hb := hst.bytes
        rw [hl, Nat.zero_add] at hb
        exact hb
      · exact .none
    · exact .some (h.mono hk)

end SameBelow

end RecvBuffer

end ServerCore
