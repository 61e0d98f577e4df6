/-
  File:      ServerCore/RecvQueue.lean
  Subject:   A RecvBuffer is a bounded queue of bytes.

  `OnWrite` puts the bytes that were stored at `WritePos()` behind the unread ones, `OnRead` takes
  the oldest out, and `Clean` moves what is unread to the front of the vector or leaves it.

  More than four `_bufferSize` of unread bytes can lie so that the memcpy of `Clean` has
  overlapping ranges: which bytes it then leaves is open (`memcpyLeaves`), and the positions are
  what they are anyway. So the law of the buffer (`QueueLaw`) is about all sequences of operations;
  those that clean no more than four `_bufferSize` of unread bytes are the runs of a bounded queue
  (`recvBuffer_refines`).
-/
import Mathlib.Algebra.Ring.Int.Defs
import ServerCore.Lib.Fifo
import ServerCore.RecvBuffer

namespace ServerCore

open Seg Trans

namespace RecvBuffer

/-! ## 1. Clean with any memcpy -/

/-- `::memcpy(&buf[dst], &buf[src], n)` that leaves the bytes `moved` in its destination: those of
    the source, or any where the ranges overlap. `none`: that cannot be, or a range is not inside
    the vector. -/
def memcpyLeaves (buf : List UInt8) (dst src n : Nat) (moved : List UInt8) :
    Option (List UInt8) :=
  if dst + n ≤ buf.length ∧ src + n ≤ buf.length ∧ moved.length = n ∧
      ((dst + n ≤ src ∨ src + n ≤ dst) → moved = slice buf src n) then
    some (splice buf dst moved)
  else none

/-- `Clean()` whose memcpy, if it comes to one, leaves `moved`. -/
def cleanLeaves (b : RecvBuffer) (moved : List UInt8) : Option RecvBuffer :=
  if b.dataSize = 0 then some { b with readPos := 0, writePos := 0 }
  else if b.freeSize < b.bufferSize then
    (memcpyLeaves b.buffer 0 b.readPos.toNat b.dataSize.toNat moved).map fun buf =>
      { b with buffer := buf, readPos := 0, writePos := b.dataSize }
  else some b

/-- A memcpy that is defined leaves what it copies. -/
theorem memcpyLeaves_of_memcpy {buf buf' : List UInt8} {dst src n : Nat}
    (h : memcpy buf dst src n = some buf') (moved : List UInt8) :
    memcpyLeaves buf dst src n moved = if moved = slice buf src n then some buf' else none := by
  unfold memcpy at h
  split at h
  · rename_i hfit
    obtain rfl := Option.some.inj h
    unfold memcpyLeaves
    by_cases hmoved : moved = slice buf src n
    · have hlen : moved.length = n := by
        rw [hmoved, length_slice_of_le hfit.2.1]
      rw [if_pos ⟨hfit.1, hfit.2.1, hlen, fun _ => hmoved⟩, if_pos hmoved, hmoved]
    · rw [if_neg fun hall => hmoved (hall.2.2.2 hfit.2.2), if_neg hmoved]
  · nomatch h

/-- **A `Clean` that is defined** does the same, whatever memcpy is. -/
theorem cleanLeaves_of_clean {b b' b'' : RecvBuffer} {moved : List UInt8} (h : b.clean = some b')
    (hl : b.cleanLeaves moved = some b'') : b'' = b' := by
  unfold clean at h
  unfold cleanLeaves at hl
  split at h
  · rename_i hnone
    rw [if_pos hnone] at hl
    exact Option.some.inj (hl.symm.trans h)
  · rename_i hsome
    rw [if_neg hsome] at hl
    split at h
    · rename_i hfew
      rw [if_pos hfew] at hl
      obtain ⟨buf, hbuf, rfl⟩ := Option.map_eq_some_iff.mp h
      rw [memcpyLeaves_of_memcpy hbuf] at hl
      split at hl
      · exact (Option.some.inj hl).symm
      · nomatch hl
    · rename_i hmany
      rw [if_neg hmany] at hl
      exact Option.some.inj (hl.symm.trans h)

/-- **The outcomes of `Clean`**: the positions go back to the front, with the bytes that the memcpy
    leaves there if something is unread and little is free, and else the buffer stays. -/
theorem cleanLeaves_cases {b b' : RecvBuffer} {moved : List UInt8}
    (h : b.cleanLeaves moved = some b') :
    (b.dataSize = 0 ∧ b' = { b with readPos := 0, writePos := 0 }) ∨
      (b.dataSize ≠ 0 ∧ b.freeSize < b.bufferSize ∧ moved.length = b.dataSize.toNat ∧
        moved.length ≤ b.buffer.length ∧
        b' = { b with buffer := splice b.buffer 0 moved, readPos := 0, writePos := b.dataSize }) ∨
      (b.dataSize ≠ 0 ∧ b.bufferSize ≤ b.freeSize ∧ b' = b) := by
  unfold cleanLeaves at h
  split at h
  · rename_i hnone
    exact .inl ⟨hnone, (Option.some.inj h).symm⟩
  · rename_i hsome
    split at h
    · rename_i hfew
      obtain ⟨buf, hbuf, rfl⟩ := Option.map_eq_some_iff.mp h
      unfold memcpyLeaves at hbuf
      split at hbuf
      · rename_i hfit
        obtain rfl := Option.some.inj hbuf
        exact .inr (.inl ⟨hsome, hfew, hfit.2.2.1, by omega, rfl⟩)
      · nomatch hbuf
    · rename_i hmany
      exact .inr (.inr ⟨hsome, by omega, (Option.some.inj h).symm⟩)

/-! ## 2. Any sequence of operations -/

/-- What is done to a receive buffer. -/
inductive RecvBufferOp where
  /-- `stored` is stored at `WritePos()`, and `OnWrite(numOfBytes)` is called -/
  | onWrite (stored : List UInt8) (numOfBytes : Nat)
  /-- `OnRead(numOfBytes)` -/
  | onRead (numOfBytes : Nat)
  /-- `Clean()`; `moved` is what a memcpy in it leaves -/
  | clean (moved : List UInt8)
  deriving DecidableEq, Repr

/-- **One operation.** What is stored fits in the free space; if `numOfBytes` does, these are the
    bytes that were stored. -/
def next (b : RecvBuffer) : RecvBufferOp → Option RecvBuffer
  | .onWrite stored numOfBytes =>
      if (stored.length : Int) ≤ b.freeSize ∧
          ((numOfBytes : Int) ≤ b.freeSize → stored.length = numOfBytes) then
        some ((b.store b.writePos.toNat stored).onWrite numOfBytes).2
      else none
  | .onRead numOfBytes => some (b.onRead numOfBytes).2
  | .clean moved => b.cleanLeaves moved

/-- A buffer that was made for `bufferSize`. -/
structure MadeFor (bufferSize : Int) (b : RecvBuffer) : Prop where
  wf : b.Wf
  size : b.bufferSize = bufferSize

theorem madeFor_new {bufferSize : Int} (h : 0 < bufferSize) :
    (new bufferSize).MadeFor bufferSize := ⟨wf_new h, rfl⟩

section Step

variable {bufferSize : Int} {b b' : RecvBuffer}

/-- `OnWrite` refuses just what is more than the free space, and then does nothing. -/
theorem onWrite_cases (b : RecvBuffer) (n : Int) :
    (b.freeSize < n ∧ b.onWrite n = (false, b)) ∨
      (n ≤ b.freeSize ∧ b.onWrite n = (true, { b with writePos := b.writePos + n })) := by
  unfold onWrite
  split
  · rename_i hmuch
    exact .inl ⟨hmuch, rfl⟩
  · rename_i hfits
    exact .inr ⟨by omega, rfl⟩

/-- `OnRead` refuses just what is more than the unread bytes, and then does nothing. -/
theorem onRead_cases (b : RecvBuffer) (n : Int) :
    (b.dataSize < n ∧ b.onRead n = (false, b)) ∨
      (n ≤ b.dataSize ∧ b.onRead n = (true, { b with readPos := b.readPos + n })) := by
  unfold onRead
  split
  · rename_i hmuch
    exact .inl ⟨hmuch, rfl⟩
  · rename_i hfits
    exact .inr ⟨by omega, rfl⟩

/-- What is stored in the free space leaves the unread bytes alone. -/
theorem unread_store (h : b.Wf) {stored : List UInt8} (hfit : (stored.length : Int) ≤ b.freeSize) :
    (b.store b.writePos.toNat stored).unread = b.unread := by
  have h1 := h.lengthEq
  have h2 := h.readLe
  have h4 := h.readNonneg
  unfold freeSize at hfit
  exact slice_splice_of_disjoint (by omega) (.inl (by
    unfold dataSize store
    dsimp only
    omega))

theorem MadeFor.store (h : b.MadeFor bufferSize) {stored : List UInt8}
    (hfit : (stored.length : Int) ≤ b.freeSize) :
    (b.store b.writePos.toNat stored).MadeFor bufferSize := by
  have h2 := h.wf.readLe
  have h4 := h.wf.readNonneg
  unfold freeSize at hfit
  exact ⟨h.wf.store (by omega), h.size⟩

theorem MadeFor.onWrite (h : b.MadeFor bufferSize) (n : Nat) :
    (b.onWrite n).2.MadeFor bufferSize := by
  rcases b.onWrite_cases n with ⟨-, e⟩ | ⟨-, e⟩
  · rw [e]
    exact h
  · rw [e]
    exact ⟨h.wf.onWrite e, h.size⟩

theorem MadeFor.onRead (h : b.MadeFor bufferSize) (n : Nat) :
    (b.onRead n).2.MadeFor bufferSize := by
  rcases b.onRead_cases n with ⟨-, e⟩ | ⟨-, e⟩
  · rw [e]
    exact h
  · rw [e]
    exact ⟨h.wf.onRead e, h.size⟩

theorem MadeFor.clean (h : b.MadeFor bufferSize) {moved : List UInt8}
    (hc : b.cleanLeaves moved = some b') : b'.MadeFor bufferSize := by
  have h1 := h.wf.lengthEq
  have h2 := h.wf.readLe
  have h3 := h.wf.writeLe
  have h4 := h.wf.readNonneg
  rcases cleanLeaves_cases hc with ⟨-, rfl⟩ | ⟨-, -, -, hfit, rfl⟩ | ⟨-, -, rfl⟩
  · exact ⟨⟨h.wf.sizePos, h.wf.capacityEq, h1, Int.le_refl 0, Int.le_refl 0, by
      dsimp only
      omega⟩, h.size⟩
  · have hlen : (splice b.buffer 0 moved).length = b.buffer.length :=
      length_splice (by rwa [Nat.zero_add])
    unfold dataSize
    refine ⟨⟨h.wf.sizePos, h.wf.capacityEq, ?_, Int.le_refl 0, ?_, ?_⟩, h.size⟩
    · dsimp only
      rwa [hlen]
    · dsimp only
      omega
    · dsimp only
      omega
  · exact h

/-- **One operation.** -/
theorem MadeFor.step (h : b.MadeFor bufferSize) {op : RecvBufferOp} (hs : b.next op = some b') :
    b'.MadeFor bufferSize := by
  cases op with
  | onWrite stored n =>
      simp only [next] at hs
      split at hs
      · rename_i hstored
        obtain rfl := Option.some.inj hs
        exact (h.store hstored.1).onWrite n
      · nomatch hs
  | onRead n =>
      obtain rfl := Option.some.inj hs
      exact h.onRead n
  | clean moved => exact h.clean hs

end Step

/-! ## 3. The law of the buffer -/

/-- **The law of a receive buffer** that was made for `bufferSize`, in one state. -/
structure QueueLaw (bufferSize : Int) (b : RecvBuffer) : Prop where
  positions : 0 ≤ b.readPos ∧ b.readPos ≤ b.writePos ∧ b.writePos ≤ b.capacity
  /-- so all counters are what they are in `int32_t` -/
  capacity : b.capacity = 10 * bufferSize ∧ b.capacity < 2 ^ 31
  length : (b.unread.length : Int) = b.dataSize
  /-- `OnWrite` refuses what is more than the free space and changes nothing, or puts the bytes
      that were stored behind the unread ones -/
  onWrite : ∀ (stored : List UInt8) (n : Nat), (stored.length : Int) ≤ b.freeSize →
    let w := b.store b.writePos.toNat stored
    w.unread = b.unread ∧ ((w.onWrite n).1 = false ↔ b.freeSize < n) ∧
      ((w.onWrite n).1 = false → (w.onWrite n).2 = w) ∧
      (stored.length = n → (w.onWrite n).1 = true ∧ (w.onWrite n).2.unread = b.unread ++ stored)
  /-- `OnRead` refuses what is more than the unread bytes and changes nothing, or drops the
      oldest -/
  onRead : ∀ n : Nat, ((b.onRead n).1 = false ↔ b.dataSize < n) ∧
    ((b.onRead n).1 = false → (b.onRead n).2 = b) ∧
    ((b.onRead n).1 = true → (b.onRead n).2.unread = b.unread.drop n)
  /-- the ranges of the memcpy in `Clean` are inside the vector, and with few unread bytes the
      destination ends before the source -/
  inside : ∃ moved b', b.cleanLeaves moved = some b'
  apart : (b.unread.length : Int) ≤ 4 * bufferSize →
    b.clean ≠ none ∧ (b.freeSize < bufferSize → b.dataSize ≤ b.readPos)
  /-- `Clean` keeps the unread bytes if they are few ... -/
  kept : (b.unread.length : Int) ≤ 4 * bufferSize →
    ∀ moved b', b.cleanLeaves moved = some b' → b'.unread = b.unread
  /-- ... and makes room for the next ones unless they are very many -/
  room : (b.unread.length : Int) ≤ 9 * bufferSize →
    ∀ moved b', b.cleanLeaves moved = some b' → bufferSize ≤ b'.freeSize

section Law

variable {bufferSize : Int} {b : RecvBuffer}

theorem MadeFor.onWrite_law (h : b.MadeFor bufferSize) {stored : List UInt8} (n : Nat)
    (hfit : (stored.length : Int) ≤ b.freeSize) :
    let w := b.store b.writePos.toNat stored
    w.unread = b.unread ∧ ((w.onWrite n).1 = false ↔ b.freeSize < n) ∧
      ((w.onWrite n).1 = false → (w.onWrite n).2 = w) ∧
      (stored.length = n →
        (w.onWrite n).1 = true ∧ (w.onWrite n).2.unread = b.unread ++ stored) := by
  intro w
  refine ⟨unread_store h.wf hfit, ?_⟩
  have hsame : w.freeSize = b.freeSize := rfl
  rcases w.onWrite_cases n with ⟨hmuch, e⟩ | ⟨hfits, e⟩
  · rw [e]
    refine ⟨iff_of_true rfl (hsame ▸ hmuch), fun _ => rfl, fun hlen => ?_⟩
    omega
  · refine ⟨?_, fun hfalse => ?_, fun hlen => ?_⟩
    · rw [e]
      exact iff_of_false Bool.noConfusion (by omega)
    · rw [e] at hfalse
      nomatch hfalse
    · subst hlen
      obtain ⟨b', hb', -, hun, -⟩ := onWrite_spec h.wf hfit
      rw [show w.onWrite stored.length = (true, b') from hb']
      exact ⟨rfl, hun⟩

theorem MadeFor.onRead_law (h : b.MadeFor bufferSize) (n : Nat) :
    ((b.onRead n).1 = false ↔ b.dataSize < n) ∧
      ((b.onRead n).1 = false → (b.onRead n).2 = b) ∧
      ((b.onRead n).1 = true → (b.onRead n).2.unread = b.unread.drop n) := by
  rcases b.onRead_cases n with ⟨hmuch, e⟩ | ⟨hfits, e⟩
  · rw [e]
    exact ⟨iff_of_true rfl hmuch, fun _ => rfl, fun htrue => nomatch htrue⟩
  · obtain ⟨b', hb', -, hun, -⟩ := onRead_spec h.wf (Int.natCast_nonneg n) hfits
    rw [hb']
    exact ⟨iff_of_false Bool.noConfusion (by omega), fun hfalse => (nomatch hfalse), fun _ => hun⟩

/-- The unread bytes are inside the vector, so `Clean` has an outcome. -/
theorem MadeFor.inside (h : b.MadeFor bufferSize) : ∃ moved b', b.cleanLeaves moved = some b' := by
  have h1 := h.wf.lengthEq
  have h2 := h.wf.readLe
  have h3 := h.wf.writeLe
  have h4 := h.wf.readNonneg
  have hin : b.readPos.toNat + b.dataSize.toNat ≤ b.buffer.length := by
    unfold dataSize
    omega
  refine ⟨b.unread, ?_⟩
  unfold cleanLeaves
  split
  · exact ⟨_, rfl⟩
  · split
    · have hleaves : memcpyLeaves b.buffer 0 b.readPos.toNat b.dataSize.toNat b.unread =
          some (splice b.buffer 0 b.unread) :=
        if_pos ⟨by omega, hin, length_slice_of_le hin, fun _ => rfl⟩
      rw [hleaves]
      exact ⟨_, rfl⟩
    · exact ⟨_, rfl⟩

/-- After `Clean` there is room for one read, unless almost the whole vector is unread. -/
theorem MadeFor.room (h : b.MadeFor bufferSize) (hfew : b.dataSize ≤ 9 * bufferSize)
    {moved : List UInt8} {b' : RecvBuffer} (hc : b.cleanLeaves moved = some b') :
    bufferSize ≤ b'.freeSize := by
  have h0 := h.wf.sizePos
  have h1 := h.wf.capacityEq
  rw [h.size] at h0 h1
  rcases cleanLeaves_cases hc with ⟨-, rfl⟩ | ⟨-, -, -, -, rfl⟩ | ⟨-, hmany, rfl⟩
  · unfold freeSize
    dsimp only
    omega
  · unfold freeSize
    dsimp only
    omega
  · rwa [h.size] at hmany

theorem MadeFor.law (h : b.MadeFor bufferSize) (hint32 : 10 * bufferSize < 2 ^ 31) :
    b.QueueLaw bufferSize := by
  have hlength := length_unread h.wf
  have hcapacity : b.capacity = 10 * bufferSize := by
    rw [h.wf.capacityEq, h.size, Int.mul_comm]
  have hclean (hfew : (b.unread.length : Int) ≤ 4 * bufferSize) :
      ∃ b', b.clean = some b' ∧ b'.unread = b.unread := by
    have hspec : b.dataSize ≤ 4 * b.bufferSize := by
      rwa [← hlength, h.size]
    obtain ⟨b', hb', -, hun, -⟩ := clean_spec h.wf hspec
    exact ⟨b', hb', hun⟩
  exact {
    positions := ⟨h.wf.readNonneg, h.wf.readLe, h.wf.writeLe⟩
    capacity := ⟨hcapacity, hcapacity ▸ hint32⟩
    length := hlength
    onWrite := fun stored n hfit => h.onWrite_law n hfit
    onRead := h.onRead_law
    inside := h.inside
    apart := fun hfew => by
      obtain ⟨b', hb', -⟩ := hclean hfew
      refine ⟨hb' ▸ Option.some_ne_none b', fun hfree => ?_⟩
      unfold dataSize at hlength ⊢
      unfold freeSize at hfree
      omega
    kept := fun hfew moved b' hc => by
      obtain ⟨b'', hb'', hun⟩ := hclean hfew
      rw [cleanLeaves_of_clean hb'' hc, hun]
    room := fun hfew moved b' hc => h.room (hlength ▸ hfew) hc }

end Law

/-! ## 4. The queue -/

/-- What an operation of the buffer is to a queue of bytes. -/
def queueOp (b : RecvBuffer) : RecvBufferOp → Fifo.Op UInt8
  | .onWrite stored n => if (b.onWrite n).1 then .put stored else .keep
  | .onRead n => if (b.onRead n).1 then .take n else .keep
  | .clean _ => .keep

/-- What the operations of a run are. -/
def queueOps : RecvBuffer → List RecvBufferOp → List (Fifo.Op UInt8)
  | _, [] => []
  | b, op :: ops => b.queueOp op :: ((b.next op).map fun b' => b'.queueOps ops).getD []

/-- At most four `_bufferSize` are unread at a `Clean`. -/
def FewUnread (b : RecvBuffer) : RecvBufferOp → Prop
  | .clean _ => (b.unread.length : Int) ≤ 4 * b.bufferSize
  | .onWrite _ _ | .onRead _ => True

instance (b : RecvBuffer) : ∀ op, Decidable (b.FewUnread op)
  | .clean _ => Int.decLe _ _
  | .onWrite _ _ => .isTrue trivial
  | .onRead _ => .isTrue trivial

section Refinement

variable {bufferSize : Int} {b b' : RecvBuffer} {bound : Nat} {q : Fifo.Queue UInt8 bound}

/-- The queue holds the unread bytes. -/
def Holds (q : Fifo.Queue UInt8 bound) (b : RecvBuffer) : Prop := q.elems = b.unread

/-- **One operation** of the buffer is one of the queue. -/
theorem QueueLaw.refines (h : b.QueueLaw bufferSize) (hsize : b.bufferSize = bufferSize)
    (hbound : b.capacity ≤ bound) (hq : Holds q b) {op : RecvBufferOp} (hok : b.FewUnread op)
    (hs : b.next op = some b') : ∃ q', q.next (b.queueOp op) = some q' ∧ Holds q' b' := by
  have hlength := h.length
  cases op with
  | onWrite stored n =>
      simp only [next] at hs
      split at hs
      case isFalse => nomatch hs
      case isTrue hstored =>
      obtain rfl := Option.some.inj hs
      obtain ⟨hun, hrefuses, hfalse, hput⟩ := h.onWrite stored n hstored.1
      unfold queueOp
      dsimp only
      rcases b.onWrite_cases n with ⟨hmuch, e⟩ | ⟨hfits, e⟩
      · rw [e, if_neg Bool.false_ne_true, hfalse (hrefuses.mpr hmuch)]
        exact ⟨q, rfl, hq.trans hun.symm⟩
      · have hlen := hstored.2 hfits
        obtain ⟨-, hafter⟩ := hput hlen
        have hroom : q.elems.length + stored.length ≤ bound := by
          have hpos := h.positions
          unfold freeSize at hfits
          unfold dataSize at hlength
          rw [hq]
          omega
        rw [e, if_pos rfl]
        refine ⟨_, Fifo.Queue.next_put hroom, ?_⟩
        rw [Holds, hafter, ← hq]
  | onRead n =>
      obtain rfl := Option.some.inj hs
      obtain ⟨hrefuses, hfalse, htake⟩ := h.onRead n
      unfold queueOp
      dsimp only
      cases hr : (b.onRead n).1 with
      | false =>
          rw [if_neg Bool.false_ne_true, hfalse hr]
          exact ⟨q, rfl, hq⟩
      | true =>
          have hhas : n ≤ q.elems.length := by
            have hnot : ¬ b.dataSize < n := fun hmuch => by
              rw [hrefuses.mpr hmuch] at hr
              nomatch hr
            rw [hq]
            omega
          rw [if_pos rfl]
          refine ⟨_, Fifo.Queue.next_take hhas, ?_⟩
          rw [Holds, htake hr, ← hq]
  | clean moved =>
      have hfew : (b.unread.length : Int) ≤ 4 * bufferSize := hsize ▸ hok
      exact ⟨q, rfl, hq.trans (h.kept hfew moved b' hs).symm⟩

/-- **A run** of the buffer is one of the queue. -/
theorem MadeFor.exec_refines (hint32 : 10 * bufferSize < 2 ^ 31)
    (hbound : 10 * bufferSize ≤ bound) (ops : List RecvBufferOp) :
    ∀ {b b' : RecvBuffer} {q : Fifo.Queue UInt8 bound}, b.MadeFor bufferSize → Holds q b →
      exec next FewUnread b ops = some b' →
        ∃ q', exec Fifo.Queue.next always q (b.queueOps ops) = some q' ∧ Holds q' b' := by
  induction ops with
  | nil =>
      intro b b' q h hq hrun
      obtain rfl := Option.some.inj hrun
      exact ⟨q, rfl, hq⟩
  | cons op ops ih =>
      intro b b' q h hq hrun
      obtain ⟨hok, b₁, hstep, hrest⟩ := exec_cons_eq_some hrun
      have hlaw := h.law hint32
      have hcapacity : b.capacity ≤ bound := hlaw.capacity.1 ▸ hbound
      obtain ⟨q₁, hnext, hq₁⟩ := hlaw.refines h.size hcapacity hq hok hstep
      obtain ⟨q', hexec, hq'⟩ := ih (h.step hstep) hq₁ hrest
      refine ⟨q', ?_, hq'⟩
      rw [queueOps, hstep, Option.map_some, Option.getD_some, exec_cons trivial hnext]
      exact hexec

theorem holds_empty (bufferSize : Int) :
    Holds (.empty : Fifo.Queue UInt8 bound) (new bufferSize) := (unread_new bufferSize).symm

end Refinement

/-- **A receive buffer is a bounded queue of bytes**: in every state that any operations lead to,
    the positions are in order, `OnWrite` and `OnRead` put in and take out or refuse and change
    nothing, and `Clean` keeps the unread bytes if they are few and makes room; and the operations
    of a run whose `Clean`s have few unread bytes are those of a queue that holds these bytes: what
    was put in is what was taken out, and then what is unread. -/
theorem recvBuffer_refines {bufferSize : Int} (hpos : 0 < bufferSize)
    (hint32 : 10 * bufferSize < 2 ^ 31) :
    (∀ b, Reach next always (new bufferSize) b → b.QueueLaw bufferSize) ∧
    ∀ ops b, exec next FewUnread (new bufferSize) ops = some b →
      ∃ q : Fifo.Queue UInt8 (10 * bufferSize).toNat,
        exec Fifo.Queue.next always .empty ((new bufferSize).queueOps ops) = some q ∧
          Holds q b ∧
          Fifo.inputs ((new bufferSize).queueOps ops) =
            Fifo.outputs (.empty : Fifo.Queue UInt8 (10 * bufferSize).toNat)
              ((new bufferSize).queueOps ops) ++ b.unread := by
  have hnew := madeFor_new hpos
  constructor
  · intro b hr
    have h : b.MadeFor bufferSize := hr.invariant hnew fun _ _ _ h _ hs => h.step hs
    exact h.law hint32
  · intro ops b hrun
    have hbound : 10 * bufferSize ≤ ((10 * bufferSize).toNat : Int) := by omega
    obtain ⟨q, hexec, hq⟩ := hnew.exec_refines hint32 hbound ops (holds_empty bufferSize) hrun
    exact ⟨q, hexec, hq, hq ▸ Fifo.conservation _ hexec⟩

/-- Ten bytes fill a buffer that was made for one; seven are read, `Clean` moves the other three to
    the front, nine more are refused, and the last `Clean` finds nothing unread. -/
theorem recvBuffer_refines_fill :
    ∃ b, exec next FewUnread (new 1)
        [.onWrite [1, 2, 3, 4, 5, 6, 7, 8, 9, 10] 10, .onRead 7, .clean [8, 9, 10],
          .onWrite [11] 1, .onWrite [] 9, .onRead 4, .clean []] = some b ∧
      b.QueueLaw 1 ∧
      ∃ q : Fifo.Queue UInt8 10, exec Fifo.Queue.next always .empty
          [.put [1, 2, 3, 4, 5, 6, 7, 8, 9, 10], .take 7, .keep, .put [11], .keep, .take 4,
            .keep] = some q ∧ Holds q b ∧
        Fifo.inputs ((new 1).queueOps [.onWrite [1, 2, 3, 4, 5, 6, 7, 8, 9, 10] 10, .onRead 7,
          .clean [8, 9, 10], .onWrite [11] 1, .onWrite [] 9, .onRead 4, .clean []]) =
            Fifo.outputs (.empty : Fifo.Queue UInt8 10) ((new 1).queueOps
              [.onWrite [1, 2, 3, 4, 5, 6, 7, 8, 9, 10] 10, .onRead 7, .clean [8, 9, 10],
                .onWrite [11] 1, .onWrite [] 9, .onRead 4, .clean []]) ++ b.unread := by
  have h1 : (0 : Int) < 1 := by decide
  obtain ⟨hlaw, hqueue⟩ := recvBuffer_refines h1 (by decide)
  obtain ⟨b, hrun⟩ : ∃ b, exec next FewUnread (new 1)
      [.onWrite [1, 2, 3, 4, 5, 6, 7, 8, 9, 10] 10, .onRead 7, .clean [8, 9, 10],
        .onWrite [11] 1, .onWrite [] 9, .onRead 4, .clean []] = some b := ⟨_, rfl⟩
  have hreach : Reach next always (new 1) b :=
    (Reach.of_exec _ hrun).mono (fun _ _ _ => trivial) fun _ _ _ h => h
  exact ⟨b, hrun, hlaw b hreach, hqueue _ b hrun⟩

end RecvBuffer

end ServerCore
