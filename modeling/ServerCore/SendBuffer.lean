/-
  File:      ServerCore/SendBuffer.lean
  Subject:   SendBuffer, SendBufferChunk and SendBufferManager (SendBuffer.cpp), and the machine
             of the threads that use them.

  A chunk is known by its identity: `MakeShared` makes a new one, and a destroyed chunk's identity
  never comes back. The same holds for SendBuffers, whose records stay after the last reference is
  dropped (`released`), so that a run can speak of their ranges.

  `SendBufferManager::Open` is taken apart into the accesses of the thread-local current chunk,
  of the shared pool (under `_lock`) and of the chunk; between two of them other threads run.
  A thread writes into its reservation and closes it; then references to the SendBuffer may be
  held by anyone, and the last one is dropped at any time.

  Sizes are `uint32_t`: `FreeSize` and the sum in `Close` are taken modulo 2^32.
-/
import Mathlib.Algebra.Group.Nat.Defs
import ServerCore.Lib.Seg
import ServerCore.Lib.Trans

namespace ServerCore

open Seg

/-! ## 1. Chunks and buffers -/

/-- `SEND_BUFFER_CHUNK_SIZE` -/
def SendBufferChunk.chunkSize : Nat := 65536

/-- `SendBufferChunk`; the constructor resizes `_buffer`, nothing else does. -/
structure SendBufferChunk where
  buffer : List UInt8
  isOpen : Bool
  usedSize : Nat
  size_buffer : buffer.length = SendBufferChunk.chunkSize

namespace SendBufferChunk

/-- The constructor. -/
def new : SendBufferChunk := ⟨List.replicate chunkSize 0, false, 0, List.length_replicate⟩

/-- `Reset()` -/
def reset (c : SendBufferChunk) : SendBufferChunk := { c with isOpen := false, usedSize := 0 }

/-- `FreeSize()`, where `_buffer.size()` is `chunkSize` -/
def freeSize (c : SendBufferChunk) : Nat := (chunkSize + 2 ^ 32 - c.usedSize) % 2 ^ 32

/-- `Open(allocSize)`: the chunk afterwards and the start of the reservation; `none`: too large.
    The asserted conditions are not tested here (`SendBufferLaw.asserted`). -/
def open? (c : SendBufferChunk) (allocSize : Nat) : Option (SendBufferChunk × Nat) :=
  if allocSize > c.freeSize then none else some ({ c with isOpen := true }, c.usedSize)

/-- `Close(writeSize)` -/
def close (c : SendBufferChunk) (writeSize : Nat) : SendBufferChunk :=
  { c with isOpen := false, usedSize := (c.usedSize + writeSize) % 2 ^ 32 }

/-- The chunk with `bytes` stored at `i`; a store past its end is not modelled. -/
def store (c : SendBufferChunk) (i : Nat) (bytes : List UInt8) : SendBufferChunk :=
  if h : i + bytes.length ≤ chunkSize then
    { c with
      buffer := splice c.buffer i bytes
      size_buffer := (length_splice (c.size_buffer.symm ▸ h)).trans c.size_buffer }
  else c

theorem freeSize_eq {c : SendBufferChunk} (hused : c.usedSize ≤ chunkSize) :
    c.freeSize = chunkSize - c.usedSize := by
  unfold freeSize chunkSize at *
  omega

theorem open?_buffer {c c' : SendBufferChunk} {n ptr : Nat} (h : c.open? n = some (c', ptr)) :
    c'.buffer = c.buffer := by
  unfold open? at h
  split at h
  · cases h
  · cases h
    rfl

@[simp] theorem store_isOpen (c : SendBufferChunk) (i : Nat) (bytes : List UInt8) :
    (c.store i bytes).isOpen = c.isOpen := by
  unfold store
  split <;> rfl

@[simp] theorem store_usedSize (c : SendBufferChunk) (i : Nat) (bytes : List UInt8) :
    (c.store i bytes).usedSize = c.usedSize := by
  unfold store
  split <;> rfl

/-- A store leaves the ranges it does not meet. -/
theorem slice_store (c : SendBufferChunk) {i : Nat} {bytes : List UInt8} {j n : Nat}
    (h : j + n ≤ i) : slice (c.store i bytes).buffer j n = slice c.buffer j n := by
  unfold store
  split
  · rename_i hin
    exact slice_splice_of_disjoint (c.size_buffer.symm ▸ hin) (.inl h)
  · rfl

end SendBufferChunk

/-- `SendBuffer`: its chunk, the range of the chunk it reserves, and the bytes written. `closed`
    says whether `Close` was called. -/
structure SendBuffer where
  owner : Nat
  bufferPtr : Nat
  allocSize : Nat
  writeSize : Nat
  closed : Bool
  deriving DecidableEq, Repr

/-! ## 2. The threads -/

/-- The next action of a thread in `SendBufferManager::Open(size)`; `swap`: in the branch that
    replaces the current chunk. -/
inductive OpenPc where
  | idle
  /-- `if (LSendBufferChunk == nullptr)` -/
  | check (size : Nat)
  /-- `LSendBufferChunk = Pop();` -/
  | pop (swap : Bool) (size : Nat)
  /-- `LSendBufferChunk->Reset();` -/
  | reset (swap : Bool) (size : Nat)
  /-- `if (LSendBufferChunk->FreeSize() < size)` -/
  | testFree (size : Nat)
  /-- `Push(LSendBufferChunk);` -/
  | push (size : Nat)
  /-- `return LSendBufferChunk->Open(size);` -/
  | chunkOpen (size : Nat)
  /-- `Open` has returned the SendBuffer `b`, not yet closed -/
  | writing (b : Nat)
  deriving DecidableEq, Repr

/-- The chunks, the SendBuffers, the current chunk of each thread, the pool of the manager, and
    the threads. -/
structure SendBufferState where
  chunks : Nat → SendBufferChunk
  nextChunk : Nat
  buffers : Nat → Option SendBuffer
  nextBuffer : Nat
  released : List Nat
  lSendBufferChunk : Nat → Option Nat
  sendBufferChunks : List Nat
  pc : Nat → OpenPc

namespace SendBufferState

/-- Nothing allocated. -/
def fresh : SendBufferState :=
  ⟨fun _ => .new, 0, fun _ => none, 0, [], fun _ => none, [], fun _ => .idle⟩

/-- Thread `t` moves to `p`. -/
def goto (s : SendBufferState) (t : Nat) (p : OpenPc) : SendBufferState :=
  { s with pc := Function.update s.pc t p }

/-- The chunk `ch` becomes `c`. -/
def setChunk (s : SendBufferState) (ch : Nat) (c : SendBufferChunk) : SendBufferState :=
  { s with chunks := Function.update s.chunks ch c }

/-- The SendBuffer `b` becomes `B`. -/
def setBuffer (s : SendBufferState) (b : Nat) (B : SendBuffer) : SendBufferState :=
  { s with buffers := Function.update s.buffers b (some B) }

/-- The current chunk of thread `t` becomes `x`. -/
def setCurrent (s : SendBufferState) (t : Nat) (x : Option Nat) : SendBufferState :=
  { s with lSendBufferChunk := Function.update s.lSendBufferChunk t x }

/-- `ObjectPool<SendBufferChunk>::MakeShared()`: the chunk `nextChunk`. -/
def makeChunk (s : SendBufferState) : SendBufferState :=
  { s.setChunk s.nextChunk .new with nextChunk := s.nextChunk + 1 }

/-- `ObjectPool<SendBuffer>::MakeShared(..)`: the SendBuffer `nextBuffer`. -/
def makeBuffer (s : SendBufferState) (B : SendBuffer) : SendBufferState :=
  { s.setBuffer s.nextBuffer B with nextBuffer := s.nextBuffer + 1 }

/-- `SendBufferManager::Pop()` -/
def pop (s : SendBufferState) : SendBufferState × Nat :=
  match s.sendBufferChunks.getLast? with
  | some ch => ({ s with sendBufferChunks := s.sendBufferChunks.dropLast }, ch)
  | none => (s.makeChunk, s.nextChunk)

/-- `SendBufferManager::Push(buffer)` by thread `t` -/
def push (s : SendBufferState) (t ch : Nat) : SendBufferState :=
  if s.lSendBufferChunk t = some ch then s
  else { s with sendBufferChunks := s.sendBufferChunks ++ [ch] }

/-- **The next action of thread `t`** inside `Open`; `none`: it is not inside, or it would
    dereference a null current chunk. -/
def openStep (s : SendBufferState) (t : Nat) : Option SendBufferState :=
  match s.pc t with
  | .idle | .writing _ => none
  | .check size =>
      match s.lSendBufferChunk t with
      | none => some (s.goto t (.pop false size))
      | some _ => some (s.goto t (.testFree size))
  | .pop swap size =>
      let (s', ch) := s.pop
      some ((s'.setCurrent t (some ch)).goto t (.reset swap size))
  | .reset swap size =>
      (s.lSendBufferChunk t).map fun ch =>
        (s.setChunk ch (s.chunks ch).reset).goto t
          (if swap then .chunkOpen size else .testFree size)
  | .testFree size =>
      (s.lSendBufferChunk t).map fun ch =>
        s.goto t (if (s.chunks ch).freeSize < size then .push size else .chunkOpen size)
  | .push size =>
      (s.lSendBufferChunk t).map fun ch => (s.push t ch).goto t (.pop true size)
  | .chunkOpen size =>
      (s.lSendBufferChunk t).map fun ch =>
        match (s.chunks ch).open? size with
        | none => s.goto t .idle
        | some (c, ptr) =>
            ((s.setChunk ch c).makeBuffer ⟨ch, ptr, size, 0, false⟩).goto t (.writing s.nextBuffer)

end SendBufferState

/-- What can happen next. -/
inductive SendBufferLabel where
  /-- the idle thread `t` calls `Open(size)`, with `1 <= size <= SEND_BUFFER_CHUNK_SIZE` -/
  | call (t size : Nat)
  /-- thread `t` takes its next action inside `Open` -/
  | run (t : Nat)
  /-- thread `t` stores `bytes` at offset `off` of its reservation -/
  | write (t off : Nat) (bytes : List UInt8)
  /-- thread `t` calls `Close(writeSize)` -/
  | close (t writeSize : Nat)
  /-- the last reference to the closed SendBuffer `b` is dropped -/
  | release (b : Nat)
  /-- the idle thread `t` ends, and its current chunk is dropped -/
  | exit (t : Nat)
  deriving DecidableEq, Repr

namespace SendBufferState

/-- **The step function of the SendBuffer machine.** -/
def next (s : SendBufferState) : SendBufferLabel → Option SendBufferState
  | .call t size =>
      if s.pc t = .idle ∧ 1 ≤ size ∧ size ≤ SendBufferChunk.chunkSize then
        some (s.goto t (.check size))
      else none
  | .run t => s.openStep t
  | .write t off bytes =>
      match s.pc t with
      | .writing b =>
          (s.buffers b).bind fun B =>
            if off + bytes.length ≤ B.allocSize then
              some (s.setChunk B.owner ((s.chunks B.owner).store (B.bufferPtr + off) bytes))
            else none
      | _ => none
  | .close t writeSize =>
      match s.pc t with
      | .writing b =>
          (s.buffers b).bind fun B =>
            if writeSize ≤ B.allocSize then
              some (((s.setChunk B.owner ((s.chunks B.owner).close writeSize)).setBuffer b
                { B with writeSize, closed := true }).goto t .idle)
            else none
      | _ => none
  | .release b =>
      (s.buffers b).bind fun B =>
        if B.closed ∧ b ∉ s.released then some { s with released := b :: s.released } else none
  | .exit t =>
      if s.pc t = .idle then some (s.setCurrent t none) else none

/-- The bytes `[Buffer(), Buffer() + WriteSize())` of a SendBuffer. -/
def bytes (s : SendBufferState) (B : SendBuffer) : List UInt8 :=
  slice (s.chunks B.owner).buffer B.bufferPtr B.writeSize

end SendBufferState

end ServerCore
