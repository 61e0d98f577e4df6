/-
  File:      ServerCore/SendBufferInv.lean
  Subject:   The bytes of a closed SendBuffer never change, on every run of the threads that
             open, write, close and release SendBuffers.

  The invariant has two halves. `ChunksInv` speaks of the chunks and the ranges in them: no chunk
  is used beyond its end, every closed range lies in the used part of its chunk, two closed ranges
  of one chunk are disjoint, and no chunk is current for two threads. `Knows` says what a
  thread inside `Open` knows of its current chunk; it is not touched by what other threads do
  (`Knows.frame`), since they work on other chunks.

  `Push` is only called with the current chunk of the caller and refuses it, so the pool stays
  empty and `Pop` always makes a new chunk: the chunk `Reset` is applied to is owned by no
  SendBuffer.

  * `SendBufferInv.step`: every step keeps the invariant.
  * `step_bytes`: no step changes the bytes of a closed SendBuffer.
  * `sendBuffer_immutable`: both over runs.
-/
import ServerCore.SendBuffer

namespace ServerCore

open Seg Trans

namespace SendBufferState

/-! ## 1. The invariant -/

/-- A size that `Open` is called with. -/
def Fits (size : Nat) : Prop := 1 ≤ size ∧ size ≤ SendBufferChunk.chunkSize

/-- The current chunk of `t`, if it has one, is not open. -/
def CurrentClosed (s : SendBufferState) (t : Nat) : Prop :=
  ∀ ch, s.lSendBufferChunk t = some ch → (s.chunks ch).isOpen = false

/-- No SendBuffer was ever made in the chunk `ch`. -/
def Unowned (s : SendBufferState) (ch : Nat) : Prop :=
  ∀ b B, s.buffers b = some B → B.owner ≠ ch

/-- The SendBuffer `b` is open in the current chunk of `t`, and reserves room from the used part
    on. -/
structure Reserves (s : SendBufferState) (t b : Nat) (B : SendBuffer) : Prop where
  buffer : s.buffers b = some B
  notClosed : B.closed = false
  current : s.lSendBufferChunk t = some B.owner
  isOpen : (s.chunks B.owner).isOpen = true
  start : B.bufferPtr = (s.chunks B.owner).usedSize
  room : B.bufferPtr + B.allocSize ≤ SendBufferChunk.chunkSize

/-- **What thread `t` knows** at a counter. -/
def Knows (s : SendBufferState) (t : Nat) : OpenPc → Prop
  | .idle => s.CurrentClosed t
  | .check size => Fits size ∧ s.CurrentClosed t
  | .pop _ size => Fits size
  | .reset _ size => Fits size ∧ ∃ ch, s.lSendBufferChunk t = some ch ∧ s.Unowned ch
  | .testFree size => Fits size ∧ s.CurrentClosed t ∧ ∃ ch, s.lSendBufferChunk t = some ch
  | .push size => Fits size ∧ ∃ ch, s.lSendBufferChunk t = some ch
  | .chunkOpen size => s.CurrentClosed t ∧ ∃ ch, s.lSendBufferChunk t = some ch ∧
      (s.chunks ch).usedSize + size ≤ SendBufferChunk.chunkSize
  | .writing b => ∃ B, s.Reserves t b B

/-- **The chunks and the ranges in them.** -/
structure ChunksInv (s : SendBufferState) : Prop where
  used : ∀ ch, (s.chunks ch).usedSize ≤ SendBufferChunk.chunkSize
  pool : s.sendBufferChunks = []
  current_lt : ∀ t ch, s.lSendBufferChunk t = some ch → ch < s.nextChunk
  current_inj : ∀ t u ch, s.lSendBufferChunk t = some ch → s.lSendBufferChunk u = some ch → t = u
  owner_lt : ∀ b B, s.buffers b = some B → B.owner < s.nextChunk
  buffer_lt : ∀ b B, s.buffers b = some B → b < s.nextBuffer
  closed_used : ∀ b B, s.buffers b = some B → B.closed = true →
    B.bufferPtr + B.writeSize ≤ (s.chunks B.owner).usedSize
  disjoint : ∀ b b' B B', s.buffers b = some B → s.buffers b' = some B' → b ≠ b' →
    B.closed = true → B'.closed = true → B.owner = B'.owner →
    B.bufferPtr + B.writeSize ≤ B'.bufferPtr ∨ B'.bufferPtr + B'.writeSize ≤ B.bufferPtr

/-- **The invariant of the SendBuffer machine.** -/
structure SendBufferInv (s : SendBufferState) : Prop where
  chunks : s.ChunksInv
  thread : ∀ t, s.Knows t (s.pc t)
  open_writing : ∀ b B, s.buffers b = some B → B.closed = false → ∃ t, s.pc t = .writing b

theorem sendBufferInv_fresh : fresh.SendBufferInv where
  chunks :=
    { used := fun _ => Nat.zero_le _
      pool := rfl
      current_lt := fun _ _ h => nomatch h
      current_inj := fun _ _ _ h => nomatch h
      owner_lt := fun _ _ h => nomatch h
      buffer_lt := fun _ _ h => nomatch h
      closed_used := fun _ _ h => nomatch h
      disjoint := fun _ _ _ _ h => nomatch h }
  thread _ := fun _ h => nomatch h
  open_writing _ _ h := nomatch h

/-! ## 2. Frame lemmas -/

section Frame

variable {s s' : SendBufferState}

/-- What thread `u` knows of is as it was: its current chunk, and the SendBuffers of that
    chunk. -/
structure Untouched (s s' : SendBufferState) (u : Nat) : Prop where
  current : s'.lSendBufferChunk u = s.lSendBufferChunk u
  chunk : ∀ ch, s.lSendBufferChunk u = some ch → s'.chunks ch = s.chunks ch
  buffers : ∀ b B, s.lSendBufferChunk u = some B.owner →
    (s'.buffers b = some B ↔ s.buffers b = some B)

/-- **What a thread knows stays** while what it knows of is not touched. -/
theorem Knows.frame {u : Nat} {p : OpenPc} (hU : Untouched s s' u) (h : s.Knows u p) :
    s'.Knows u p := by
  have hclosed : s.CurrentClosed u → s'.CurrentClosed u := by
    intro hc ch hch
    rw [hU.current] at hch
    rw [hU.chunk ch hch]
    exact hc ch hch
  cases p with
  | idle => exact hclosed h
  | check size => exact ⟨h.1, hclosed h.2⟩
  | pop swap size => exact h
  | reset swap size =>
      obtain ⟨hfit, ch, hch, hun⟩ := h
      refine ⟨hfit, ch, hU.current.trans hch, fun b B hb ho => ?_⟩
      exact hun b B ((hU.buffers b B (ho ▸ hch)).mp hb) ho
  | testFree size =>
      obtain ⟨hfit, hc, ch, hch⟩ := h
      exact ⟨hfit, hclosed hc, ch, hU.current.trans hch⟩
  | push size =>
      obtain ⟨hfit, ch, hch⟩ := h
      exact ⟨hfit, ch, hU.current.trans hch⟩
  | chunkOpen size =>
      obtain ⟨hc, ch, hch, hroom⟩ := h
      exact ⟨hclosed hc, ch, hU.current.trans hch, by rw [hU.chunk ch hch]; exact hroom⟩
  | writing b =>
      obtain ⟨B, hB⟩ := h
      have hch := hU.chunk _ hB.current
      exact ⟨B,
        { buffer := (hU.buffers b B hB.current).mpr hB.buffer
          notClosed := hB.notClosed
          current := hU.current.trans hB.current
          isOpen := by rw [hch]; exact hB.isOpen
          start := by rw [hch]; exact hB.start
          room := hB.room }⟩

/-- A move of a thread's counter touches no chunk. -/
theorem ChunksInv.goto (h : s.ChunksInv) (t : Nat) (p : OpenPc) : (s.goto t p).ChunksInv :=
  ⟨h.used, h.pool, h.current_lt, h.current_inj, h.owner_lt, h.buffer_lt, h.closed_used,
    h.disjoint⟩

@[simp] theorem goto_pc_self (s : SendBufferState) (t : Nat) (p : OpenPc) :
    (s.goto t p).pc t = p := by
  simp [SendBufferState.goto]

theorem goto_pc_of_ne (s : SendBufferState) {t u : Nat} (p : OpenPc) (hu : u ≠ t) :
    (s.goto t p).pc u = s.pc u := by
  simp [SendBufferState.goto, hu]

/-- What a thread knows does not depend on the counters. -/
theorem Knows.goto {u t : Nat} {p q : OpenPc} (h : s.Knows u p) : (s.goto t q).Knows u p :=
  Knows.frame (s := s) ⟨rfl, fun _ _ => rfl, fun _ _ _ => Iff.rfl⟩ h

/-- A chunk that goes on covering the closed ranges in it. -/
theorem ChunksInv.setChunk (h : s.ChunksInv) {ch : Nat} {c : SendBufferChunk}
    (hused : c.usedSize ≤ SendBufferChunk.chunkSize)
    (hclosed : ∀ b B, s.buffers b = some B → B.closed = true → B.owner = ch →
      B.bufferPtr + B.writeSize ≤ c.usedSize) : (s.setChunk ch c).ChunksInv := by
  refine { h with used := fun x => ?_, closed_used := fun b B hb hc => ?_ }
  · by_cases hx : x = ch
    · subst hx
      simpa [SendBufferState.setChunk] using hused
    · simpa [SendBufferState.setChunk, hx] using h.used x
  · by_cases hx : B.owner = ch
    · have := hclosed b B hb hc hx
      simpa [SendBufferState.setChunk, hx] using this
    · simpa [SendBufferState.setChunk, hx] using h.closed_used b B hb hc

end Frame

/-! ## 3. Every step keeps the invariant -/

section Steps

variable {s s' : SendBufferState} {t : Nat}

/-- **A step of `t` to the counter `p`**, in parts: the chunks, the other threads, what `t` knows
    now, and the SendBuffers that are open. -/
theorem SendBufferInv.move (hI : s.SendBufferInv) {p : OpenPc} (hC : s'.ChunksInv)
    (hU : ∀ u, u ≠ t → Untouched s s' u) (ht : s'.Knows t p) (hpc : s'.pc = s.pc)
    (hopen : ∀ b B, s'.buffers b = some B → B.closed = false →
      p = .writing b ∨ (s.buffers b = some B ∧ s.pc t ≠ .writing b)) :
    (s'.goto t p).SendBufferInv := by
  refine ⟨hC.goto t p, fun u => ?_, fun b B hb hc => ?_⟩
  · by_cases hu : u = t
    · subst hu
      rw [goto_pc_self]
      exact ht.goto
    · rw [goto_pc_of_ne s' p hu, hpc]
      exact ((hI.thread u).frame (hU u hu)).goto
  · rcases hopen b B hb hc with rfl | ⟨hb', hnot⟩
    · exact ⟨t, goto_pc_self s' t _⟩
    · obtain ⟨u, hu⟩ := hI.open_writing b B hb' hc
      have hut : u ≠ t := by
        rintro rfl
        exact hnot hu
      exact ⟨u, by rw [goto_pc_of_ne s' p hut, hpc]; exact hu⟩

/-- A step of `t`, not writing, that leaves the SendBuffers alone. -/
theorem SendBufferInv.move_of_buffers_eq (hI : s.SendBufferInv) {p : OpenPc}
    (hnot : ∀ b, s.pc t ≠ .writing b) (hC : s'.ChunksInv) (hU : ∀ u, u ≠ t → Untouched s s' u)
    (ht : s'.Knows t p) (hbuf : s'.buffers = s.buffers) (hpc : s'.pc = s.pc) :
    (s'.goto t p).SendBufferInv :=
  hI.move hC hU ht hpc fun b _ hb _ => .inr ⟨hbuf ▸ hb, hnot b⟩

/-- The current chunks of two threads differ. -/
theorem ChunksInv.current_ne (hC : s.ChunksInv) {ch ch' u : Nat} (hu : u ≠ t)
    (ht : s.lSendBufferChunk t = some ch) (h : s.lSendBufferChunk u = some ch') : ch' ≠ ch := by
  rintro rfl
  exact hu (hC.current_inj u t ch' h ht)

/-- Work on the current chunk of `t` does not touch the other threads. -/
theorem untouched_setChunk (hC : s.ChunksInv) {ch : Nat} (hch : s.lSendBufferChunk t = some ch)
    (c : SendBufferChunk) {u : Nat} (hu : u ≠ t) : Untouched s (s.setChunk ch c) u where
  current := rfl
  chunk x hx := by simp [SendBufferState.setChunk, hC.current_ne hu hch hx]
  buffers _ _ _ := Iff.rfl

theorem Untouched.refl (s : SendBufferState) (u : Nat) : Untouched s s u :=
  ⟨rfl, fun _ _ => rfl, fun _ _ _ => Iff.rfl⟩

theorem Untouched.trans {s₁ s₂ s₃ : SendBufferState} {u : Nat} (h : Untouched s₁ s₂ u)
    (h' : Untouched s₂ s₃ u) : Untouched s₁ s₃ u where
  current := h'.current.trans h.current
  chunk ch hch := (h'.chunk ch (h.current.trans hch)).trans (h.chunk ch hch)
  buffers b B hB := (h'.buffers b B (h.current.trans hB)).trans (h.buffers b B hB)

/-- A new chunk touches no thread. -/
theorem untouched_makeChunk (hC : s.ChunksInv) (u : Nat) : Untouched s s.makeChunk u where
  current := rfl
  chunk ch hch := by
    have := hC.current_lt u ch hch
    have hne : ch ≠ s.nextChunk := by omega
    simp [makeChunk, SendBufferState.setChunk, hne]
  buffers _ _ _ := Iff.rfl

theorem untouched_setCurrent (s : SendBufferState) (x : Option Nat) {u : Nat} (hu : u ≠ t) :
    Untouched s (s.setCurrent t x) u where
  current := by simp [setCurrent, hu]
  chunk _ _ := rfl
  buffers _ _ _ := Iff.rfl

theorem ChunksInv.makeChunk (hC : s.ChunksInv) : s.makeChunk.ChunksInv := by
  have hnew : (s.setChunk s.nextChunk .new).ChunksInv :=
    hC.setChunk (Nat.zero_le _) fun b B hb _ ho => by
      have := hC.owner_lt b B hb
      omega
  exact
    { hnew with
      current_lt := fun u ch h => Nat.lt_succ_of_lt (hC.current_lt u ch h)
      owner_lt := fun b B h => Nat.lt_succ_of_lt (hC.owner_lt b B h) }

/-- A new SendBuffer touches only the thread whose current chunk it is in. -/
theorem untouched_makeBuffer (hC : s.ChunksInv) {B : SendBuffer} {u : Nat}
    (hu : s.lSendBufferChunk u ≠ some B.owner) : Untouched s (s.makeBuffer B) u where
  current := rfl
  chunk _ _ := rfl
  buffers b B' hB' := by
    by_cases hb : b = s.nextBuffer
    · subst hb
      constructor
      · intro h
        have hBB : B = B' := by
          simpa [SendBufferState.makeBuffer, SendBufferState.setBuffer] using h
        exact absurd (hBB ▸ hB') hu
      · intro h
        exact absurd (hC.buffer_lt _ _ h) (Nat.lt_irrefl _)
    · simp [SendBufferState.makeBuffer, SendBufferState.setBuffer, hb]

/-- A new SendBuffer, not closed yet. -/
theorem ChunksInv.makeBuffer (hC : s.ChunksInv) {B : SendBuffer} (hlt : B.owner < s.nextChunk)
    (hopen : B.closed = false) : (s.makeBuffer B).ChunksInv := by
  have hold : ∀ b B', (s.makeBuffer B).buffers b = some B' →
      (b = s.nextBuffer ∧ B' = B) ∨ s.buffers b = some B' := by
    intro b B' h
    by_cases hb : b = s.nextBuffer
    · subst hb
      refine .inl ⟨rfl, ?_⟩
      have : B = B' := by simpa [SendBufferState.makeBuffer, SendBufferState.setBuffer] using h
      exact this.symm
    · refine .inr ?_
      simpa [SendBufferState.makeBuffer, SendBufferState.setBuffer, hb] using h
  have hclosed : ∀ b B', (s.makeBuffer B).buffers b = some B' → B'.closed = true →
      s.buffers b = some B' := by
    intro b B' h hc
    rcases hold b B' h with ⟨-, rfl⟩ | h
    · exact absurd (hopen.symm.trans hc) Bool.false_ne_true
    · exact h
  exact
    { used := hC.used
      pool := hC.pool
      current_lt := hC.current_lt
      current_inj := hC.current_inj
      owner_lt := fun b B' h => by
        rcases hold b B' h with ⟨-, rfl⟩ | h
        · exact hlt
        · exact hC.owner_lt b B' h
      buffer_lt := fun b B' h => by
        rcases hold b B' h with ⟨rfl, -⟩ | h
        · exact Nat.lt_succ_self _
        · exact Nat.lt_succ_of_lt (hC.buffer_lt b B' h)
      closed_used := fun b B' h hc => hC.closed_used b B' (hclosed b B' h hc) hc
      disjoint := fun b b' B₁ B₂ h₁ h₂ hne hc₁ hc₂ =>
        hC.disjoint b b' B₁ B₂ (hclosed b B₁ h₁ hc₁) (hclosed b' B₂ h₂ hc₂) hne hc₁ hc₂ }

/-- A thread's current chunk may become any chunk that is current for no thread. -/
theorem ChunksInv.setCurrent (hC : s.ChunksInv) {x : Option Nat}
    (hlt : ∀ ch, x = some ch → ch < s.nextChunk)
    (hfree : ∀ ch, x = some ch → ∀ u, s.lSendBufferChunk u ≠ some ch) :
    (s.setCurrent t x).ChunksInv := by
  refine { hC with current_lt := fun u ch h => ?_, current_inj := fun u v ch hu hv => ?_ }
  · by_cases hut : u = t
    · subst hut
      exact hlt ch (by simpa [SendBufferState.setCurrent] using h)
    · exact hC.current_lt u ch (by simpa [SendBufferState.setCurrent, hut] using h)
  · by_cases hut : u = t <;> by_cases hvt : v = t
    · rw [hut, hvt]
    · have hx : x = some ch := by simpa [SendBufferState.setCurrent, hut] using hu
      exact absurd (by simpa [SendBufferState.setCurrent, hvt] using hv) (hfree ch hx v)
    · have hx : x = some ch := by simpa [SendBufferState.setCurrent, hvt] using hv
      exact absurd (by simpa [SendBufferState.setCurrent, hut] using hu) (hfree ch hx u)
    · refine hC.current_inj u v ch ?_ ?_
      · simpa [SendBufferState.setCurrent, hut] using hu
      · simpa [SendBufferState.setCurrent, hvt] using hv

/-- The chunk `Pop` hands out is new. -/
theorem pop_eq (h : s.ChunksInv) : s.pop = (s.makeChunk, s.nextChunk) := by
  unfold pop
  rw [h.pool]
  rfl

/-- `Push` of the current chunk does nothing. -/
theorem push_eq {ch : Nat} (h : s.lSendBufferChunk t = some ch) : s.push t ch = s := by
  unfold push
  rw [if_pos h]

/-- `Pop` into the thread-local chunk. -/
theorem SendBufferInv.pop_step (hI : s.SendBufferInv) {swap : Bool} {size : Nat}
    (hp : s.pc t = .pop swap size) (h : s.openStep t = some s') : s'.SendBufferInv := by
  have hC := hI.chunks
  have hk : s.Knows t (.pop swap size) := hp ▸ hI.thread t
  simp only [openStep, hp, pop_eq hC, Option.some.injEq] at h
  subst h
  have hfresh : ∀ u, s.lSendBufferChunk u ≠ some s.nextChunk := fun u hu =>
    Nat.lt_irrefl _ (hC.current_lt u _ hu)
  refine hI.move_of_buffers_eq (by simp [hp]) (hC.makeChunk.setCurrent ?_ ?_) (fun u hu => ?_) ?_
    rfl rfl
  · rintro ch ⟨⟩
    exact Nat.lt_succ_self _
  · rintro ch ⟨⟩
    exact hfresh
  · exact (untouched_makeChunk hC u).trans (untouched_setCurrent _ _ hu)
  · refine ⟨hk, s.nextChunk, by simp [SendBufferState.setCurrent], fun b B hb ho => ?_⟩
    exact Nat.lt_irrefl _ (ho ▸ hC.owner_lt b B hb)

/-- `Reset` of a chunk that no SendBuffer is in. -/
theorem SendBufferInv.reset_step (hI : s.SendBufferInv) {swap : Bool} {size : Nat}
    (hp : s.pc t = .reset swap size) (h : s.openStep t = some s') : s'.SendBufferInv := by
  have hC := hI.chunks
  obtain ⟨hfit, ch, hch, hun⟩ : s.Knows t (.reset swap size) := hp ▸ hI.thread t
  simp only [openStep, hp, hch, Option.map_some, Option.some.injEq] at h
  subst h
  have hself : ((s.setChunk ch (s.chunks ch).reset).chunks ch) = (s.chunks ch).reset := by
    simp [SendBufferState.setChunk]
  have hclosed : (s.setChunk ch (s.chunks ch).reset).CurrentClosed t := by
    intro x hx
    obtain rfl : ch = x := Option.some.inj (hch.symm.trans hx)
    rw [hself]
    rfl
  refine hI.move_of_buffers_eq (by simp [hp]) ?_ (fun u hu => untouched_setChunk hC hch _ hu) ?_
    rfl rfl
  · exact hC.setChunk (Nat.zero_le _) fun b B hb _ ho => absurd ho (hun b B hb)
  · cases swap with
    | false => exact ⟨hfit, hclosed, ch, hch⟩
    | true =>
        refine ⟨hclosed, ch, hch, ?_⟩
        rw [hself]
        show 0 + size ≤ SendBufferChunk.chunkSize
        have := hfit.2
        omega

/-- `Open` of the current chunk. -/
theorem SendBufferInv.chunkOpen_step (hI : s.SendBufferInv) {size : Nat}
    (hp : s.pc t = .chunkOpen size) (h : s.openStep t = some s') : s'.SendBufferInv := by
  have hC := hI.chunks
  obtain ⟨hclosed, ch, hch, hroom⟩ : s.Knows t (.chunkOpen size) := hp ▸ hI.thread t
  have hfree := SendBufferChunk.freeSize_eq (hC.used ch)
  have hopen : (s.chunks ch).open? size =
      some ({ s.chunks ch with isOpen := true }, (s.chunks ch).usedSize) := by
    unfold SendBufferChunk.open?
    rw [if_neg (by omega)]
  simp only [openStep, hp, hch, hopen, Option.map_some, Option.some.injEq] at h
  subst h
  have hself : ∀ c, (s.setChunk ch c).chunks ch = c := by simp [SendBufferState.setChunk]
  have hC' : (s.setChunk ch { s.chunks ch with isOpen := true }).ChunksInv :=
    hC.setChunk (hC.used ch) fun b B hb hc ho => ho ▸ hC.closed_used b B hb hc
  refine hI.move (hC'.makeBuffer (hC.current_lt t ch hch) rfl) (fun u hu => ?_) ?_ rfl
    fun b B hb hc => ?_
  · exact (untouched_setChunk hC hch _ hu).trans
      (untouched_makeBuffer hC' (fun h => hC.current_ne hu hch h rfl))
  · refine ⟨⟨ch, (s.chunks ch).usedSize, size, 0, false⟩, ?_, rfl, hch, ?_, ?_, hroom⟩
    · simp [SendBufferState.makeBuffer, SendBufferState.setBuffer, SendBufferState.setChunk]
    · exact congrArg SendBufferChunk.isOpen (hself { s.chunks ch with isOpen := true })
    · exact (congrArg SendBufferChunk.usedSize
        (hself { s.chunks ch with isOpen := true })).symm
  · by_cases hb' : b = s.nextBuffer
    · exact .inl (congrArg OpenPc.writing hb'.symm)
    · refine .inr ⟨?_, by simp [hp]⟩
      simpa [SendBufferState.makeBuffer, SendBufferState.setBuffer, SendBufferState.setChunk,
        hb'] using hb

/-- **Every action inside `Open` keeps the invariant.** -/
theorem SendBufferInv.openStep (hI : s.SendBufferInv) (h : s.openStep t = some s') :
    s'.SendBufferInv := by
  have hC := hI.chunks
  have hk := hI.thread t
  cases hp : s.pc t with
  | idle => simp [SendBufferState.openStep, hp] at h
  | writing b => simp [SendBufferState.openStep, hp] at h
  | pop swap size => exact hI.pop_step hp h
  | reset swap size => exact hI.reset_step hp h
  | chunkOpen size => exact hI.chunkOpen_step hp h
  | check size =>
      rw [hp] at hk
      have hU : ∀ u, u ≠ t → Untouched s s u := fun u _ => .refl s u
      cases hch : s.lSendBufferChunk t with
      | none =>
          simp only [SendBufferState.openStep, hp, hch, Option.some.injEq] at h
          exact h ▸ hI.move_of_buffers_eq (by simp [hp]) hC hU hk.1 rfl rfl
      | some ch =>
          simp only [SendBufferState.openStep, hp, hch, Option.some.injEq] at h
          exact h ▸ hI.move_of_buffers_eq (by simp [hp]) hC hU ⟨hk.1, hk.2, ch, hch⟩ rfl rfl
  | testFree size =>
      rw [hp] at hk
      obtain ⟨hfit, hclosed, ch, hch⟩ := hk
      have hfree := SendBufferChunk.freeSize_eq (hC.used ch)
      have hused := hC.used ch
      simp only [SendBufferState.openStep, hp, hch, Option.map_some, Option.some.injEq] at h
      subst h
      refine hI.move_of_buffers_eq (by simp [hp]) hC (fun u _ => .refl s u) ?_ rfl rfl
      split
      · exact ⟨hfit, ch, hch⟩
      · exact ⟨hclosed, ch, hch, by omega⟩
  | push size =>
      rw [hp] at hk
      obtain ⟨hfit, ch, hch⟩ := hk
      simp only [SendBufferState.openStep, hp, hch, Option.map_some, push_eq hch,
        Option.some.injEq] at h
      exact h ▸ hI.move_of_buffers_eq (by simp [hp]) hC (fun u _ => .refl s u) hfit rfl rfl

/-- A write inside the reservation leaves the sizes of the chunk alone. -/
theorem SendBufferInv.write_step (hI : s.SendBufferInv) {off : Nat} {bytes : List UInt8}
    (h : s.next (.write t off bytes) = some s') : s'.SendBufferInv ∧
      ∃ b B, s.Reserves t b B ∧ off + bytes.length ≤ B.allocSize ∧
        s' = s.setChunk B.owner ((s.chunks B.owner).store (B.bufferPtr + off) bytes) := by
  have hC := hI.chunks
  cases hp : s.pc t with
  | writing b =>
      obtain ⟨B, hB⟩ : s.Knows t (.writing b) := hp ▸ hI.thread t
      simp only [next, hp, hB.buffer, Option.bind_some] at h
      split at h
      · rename_i hin
        cases h
        refine ⟨?_, b, B, hB, hin, rfl⟩
        refine ⟨hC.setChunk ?_ fun b' B' hb' hc ho => ?_, fun u => ?_, hI.open_writing⟩
        · simpa using hC.used B.owner
        · simpa [ho] using hC.closed_used b' B' hb' hc
        · by_cases hu : u = t
          · subst hu
            rw [show (s.setChunk _ _).pc u = s.pc u from rfl, hp]
            refine ⟨B, hB.buffer, hB.notClosed, hB.current, ?_, ?_, hB.room⟩
            · simpa [SendBufferState.setChunk] using hB.isOpen
            · simpa [SendBufferState.setChunk] using hB.start
          · exact (hI.thread u).frame (untouched_setChunk hC hB.current _ hu)
      · cases h
  | _ => simp [next, hp] at h

/-- What a write of the record of `b` leaves of the SendBuffers. -/
theorem setBuffer_cases {b b' : Nat} {B B' : SendBuffer}
    (h : (s.setBuffer b B).buffers b' = some B') :
    (b' = b ∧ B' = B) ∨ (b' ≠ b ∧ s.buffers b' = some B') := by
  by_cases hb : b' = b
  · subst hb
    have hBB : B = B' := by simpa [SendBufferState.setBuffer] using h
    exact .inl ⟨rfl, hBB.symm⟩
  · exact .inr ⟨hb, by simpa [SendBufferState.setBuffer, hb] using h⟩

/-- A write of the record of a SendBuffer touches only the thread whose current chunk it is in. -/
theorem untouched_setBuffer {b : Nat} {B B₀ : SendBuffer} (hb : s.buffers b = some B₀)
    (ho : B.owner = B₀.owner) {u : Nat} (hu : s.lSendBufferChunk u ≠ some B.owner) :
    Untouched s (s.setBuffer b B) u where
  current := rfl
  chunk _ _ := rfl
  buffers b' B' hB' := by
    constructor
    · intro h
      rcases setBuffer_cases h with ⟨-, rfl⟩ | ⟨-, h⟩
      · exact absurd hB' hu
      · exact h
    · intro h
      by_cases hbb : b' = b
      · subst hbb
        obtain rfl : B₀ = B' := Option.some.inj (hb.symm.trans h)
        exact absurd (ho ▸ hB') hu
      · simpa [SendBufferState.setBuffer, hbb] using h

/-- **The open range becomes a closed one**: it starts where the closed ranges of its chunk end. -/
theorem ChunksInv.closeBuffer (hC : s.ChunksInv) {b writeSize : Nat} {B : SendBuffer}
    (hB : s.Reserves t b B) (hle : writeSize ≤ B.allocSize) :
    ((s.setChunk B.owner ((s.chunks B.owner).close writeSize)).setBuffer b
      { B with writeSize, closed := true }).ChunksInv := by
  have hroom := hB.room
  have hstart := hB.start
  have hused : ((s.chunks B.owner).close writeSize).usedSize =
      (s.chunks B.owner).usedSize + writeSize := by
    show ((s.chunks B.owner).usedSize + writeSize) % 2 ^ 32 = _
    unfold SendBufferChunk.chunkSize at hroom
    omega
  have hC' : (s.setChunk B.owner ((s.chunks B.owner).close writeSize)).ChunksInv :=
    hC.setChunk (by omega) fun b' B' hb' hc ho => by
      have := hC.closed_used b' B' hb' hc
      rw [ho] at this
      omega
  have hself : ((s.setChunk B.owner ((s.chunks B.owner).close writeSize)).chunks
      B.owner).usedSize = (s.chunks B.owner).usedSize + writeSize := by
    rw [← hused]
    simp [SendBufferState.setChunk]
  -- every closed range of the chunk ends before the new one starts
  have hbefore : ∀ b' B', s.buffers b' = some B' → B'.closed = true → B'.owner = B.owner →
      B'.bufferPtr + B'.writeSize ≤ B.bufferPtr := by
    intro b' B' hb' hc ho
    rw [hstart, ← ho]
    exact hC.closed_used b' B' hb' hc
  refine
    { used := hC'.used
      pool := hC.pool
      current_lt := hC.current_lt
      current_inj := hC.current_inj
      owner_lt := fun b' B' h => ?_
      buffer_lt := fun b' B' h => ?_
      closed_used := fun b' B' h hc => ?_
      disjoint := fun b₁ b₂ B₁ B₂ h₁ h₂ hne hc₁ hc₂ ho => ?_ }
  · rcases setBuffer_cases h with ⟨rfl, rfl⟩ | ⟨-, h⟩
    · exact hC.owner_lt b' B hB.buffer
    · exact hC.owner_lt b' B' h
  · rcases setBuffer_cases h with ⟨rfl, rfl⟩ | ⟨-, h⟩
    · exact hC.buffer_lt b' B hB.buffer
    · exact hC.buffer_lt b' B' h
  · rcases setBuffer_cases h with ⟨rfl, rfl⟩ | ⟨-, h⟩
    · show B.bufferPtr + writeSize ≤ ((s.setChunk B.owner _).chunks B.owner).usedSize
      omega
    · exact hC'.closed_used b' B' h hc
  · rcases setBuffer_cases h₁ with ⟨e₁, rfl⟩ | ⟨-, old₁⟩
    · rcases setBuffer_cases h₂ with ⟨e₂, -⟩ | ⟨-, old₂⟩
      · exact absurd (e₁.trans e₂.symm) hne
      · exact .inr (hbefore b₂ B₂ old₂ hc₂ ho.symm)
    · rcases setBuffer_cases h₂ with ⟨-, rfl⟩ | ⟨-, old₂⟩
      · exact .inl (hbefore b₁ B₁ old₁ hc₁ ho)
      · exact hC.disjoint b₁ b₂ B₁ B₂ old₁ old₂ hne hc₁ hc₂ ho

/-- `Close` of the SendBuffer that `t` writes. -/
theorem SendBufferInv.close_step (hI : s.SendBufferInv) {writeSize : Nat}
    (h : s.next (.close t writeSize) = some s') : s'.SendBufferInv := by
  have hC := hI.chunks
  cases hp : s.pc t with
  | writing b =>
      obtain ⟨B, hB⟩ : s.Knows t (.writing b) := hp ▸ hI.thread t
      simp only [next, hp, hB.buffer, Option.bind_some] at h
      split at h
      · rename_i hle
        cases h
        refine hI.move (hC.closeBuffer hB hle) (fun u hu => ?_) ?_ rfl fun b' B' hb' hc => ?_
        · refine (untouched_setChunk hC hB.current ((s.chunks B.owner).close writeSize) hu).trans ?_
          refine untouched_setBuffer (s := s.setChunk B.owner ((s.chunks B.owner).close writeSize))
            (B := { B with writeSize, closed := true }) hB.buffer rfl ?_
          exact fun h => hC.current_ne hu hB.current h rfl
        · intro ch hch
          obtain rfl : B.owner = ch := Option.some.inj (hB.current.symm.trans hch)
          simp [SendBufferState.setBuffer, SendBufferState.setChunk, SendBufferChunk.close]
        · rcases setBuffer_cases hb' with ⟨-, rfl⟩ | ⟨hne, hb'⟩
          · cases hc
          · exact .inr ⟨hb', by rw [hp]; exact fun e => hne (OpenPc.writing.inj e).symm⟩
      · cases h
  | _ => simp [next, hp] at h

/-- **Every step keeps the invariant.** -/
theorem SendBufferInv.step {l : SendBufferLabel} (hI : s.SendBufferInv) (h : s.next l = some s') :
    s'.SendBufferInv := by
  have hC := hI.chunks
  cases l with
  | call t size =>
      simp only [next] at h
      split at h
      · rename_i hcall
        obtain ⟨hidle, hfit⟩ := hcall
        cases h
        have hclosed : s.Knows t .idle := hidle ▸ hI.thread t
        exact hI.move_of_buffers_eq (by simp [hidle]) hC (fun u _ => .refl s u)
          (show Fits size ∧ _ from ⟨hfit, hclosed⟩) rfl rfl
      · cases h
  | run t => exact hI.openStep h
  | write t off bytes => exact (hI.write_step h).1
  | close t writeSize => exact hI.close_step h
  | release b =>
      obtain ⟨B, hb, h⟩ := Option.bind_eq_some_iff.mp h
      split at h
      · cases h
        refine ⟨⟨hC.used, hC.pool, hC.current_lt, hC.current_inj, hC.owner_lt,
          hC.buffer_lt, hC.closed_used, hC.disjoint⟩, fun u => ?_, hI.open_writing⟩
        exact Knows.frame (s := s) ⟨rfl, fun _ _ => rfl, fun _ _ _ => Iff.rfl⟩ (hI.thread u)
      · cases h
  | exit t =>
      simp only [next] at h
      split at h
      · rename_i hidle
        cases h
        refine ⟨hC.setCurrent (fun _ h => nomatch h) (fun _ h => nomatch h), fun u => ?_,
          hI.open_writing⟩
        by_cases hu : u = t
        · subst hu
          rw [show (s.setCurrent u none).pc u = s.pc u from rfl, hidle]
          intro ch hch
          simp [SendBufferState.setCurrent] at hch
        · exact (hI.thread u).frame (untouched_setCurrent s none hu)
      · cases h


/-! ## 4. The bytes of a closed SendBuffer -/

/-- The memory and the record of a SendBuffer that is closed are left alone. -/
structure Kept (s s' : SendBufferState) (b : Nat) (B : SendBuffer) : Prop where
  buffer : s'.buffers b = some B
  bytes : s'.bytes B = s.bytes B

theorem Kept.of_memory {b : Nat} {B : SendBuffer} (hb : s'.buffers b = some B)
    (hmem : (s'.chunks B.owner).buffer = (s.chunks B.owner).buffer) : Kept s s' b B :=
  ⟨hb, by rw [SendBufferState.bytes, SendBufferState.bytes, hmem]⟩

/-- A change of a chunk that leaves its memory alone. -/
theorem setChunk_buffer (ch : Nat) (c : SendBufferChunk) (h : c.buffer = (s.chunks ch).buffer)
    (x : Nat) : ((s.setChunk ch c).chunks x).buffer = (s.chunks x).buffer := by
  by_cases hx : x = ch
  · subst hx
    simpa [SendBufferState.setChunk] using h
  · simp [SendBufferState.setChunk, hx]

/-- `Open` stores no bytes in the chunks there are, and leaves the SendBuffers there are. -/
theorem kept_openStep (hI : s.SendBufferInv) {b : Nat} {B : SendBuffer}
    (hb : s.buffers b = some B) (h : s.openStep t = some s') : Kept s s' b B := by
  have hC := hI.chunks
  cases hp : s.pc t with
  | idle => simp [SendBufferState.openStep, hp] at h
  | writing _ => simp [SendBufferState.openStep, hp] at h
  | check size =>
      simp only [SendBufferState.openStep, hp] at h
      split at h
      · cases h
        exact .of_memory hb rfl
      · cases h
        exact .of_memory hb rfl
  | pop swap size =>
      simp only [SendBufferState.openStep, hp, pop_eq hC, Option.some.injEq] at h
      subst h
      refine .of_memory hb ?_
      have hne : B.owner ≠ s.nextChunk := Nat.ne_of_lt (hC.owner_lt b B hb)
      simp [SendBufferState.goto, SendBufferState.setCurrent, SendBufferState.makeChunk,
        SendBufferState.setChunk, hne]
  | reset swap size =>
      obtain ⟨ch, hch, rfl⟩ := Option.map_eq_some_iff.mp
        (by simpa only [SendBufferState.openStep, hp] using h)
      exact .of_memory hb (setChunk_buffer ch (s.chunks ch).reset rfl B.owner)
  | testFree size =>
      obtain ⟨ch, hch, rfl⟩ := Option.map_eq_some_iff.mp
        (by simpa only [SendBufferState.openStep, hp] using h)
      exact .of_memory hb rfl
  | push size =>
      obtain ⟨ch, hch, rfl⟩ := Option.map_eq_some_iff.mp
        (by simpa only [SendBufferState.openStep, hp] using h)
      rw [push_eq hch]
      exact .of_memory hb rfl
  | chunkOpen size =>
      obtain ⟨ch, hch, rfl⟩ := Option.map_eq_some_iff.mp
        (by simpa only [SendBufferState.openStep, hp] using h)
      cases ho : (s.chunks ch).open? size with
      | none => exact .of_memory hb rfl
      | some r =>
        have hne : b ≠ s.nextBuffer := Nat.ne_of_lt (hC.buffer_lt b B hb)
        refine .of_memory ?_ (setChunk_buffer ch r.1 (SendBufferChunk.open?_buffer ho) B.owner)
        simpa [SendBufferState.goto, SendBufferState.makeBuffer, SendBufferState.setBuffer,
          SendBufferState.setChunk, hne] using hb

/-- **No step changes the bytes of a closed SendBuffer**: the only stores go to the reservation of
    an open one, behind every closed range of its chunk. -/
theorem kept_step (hI : s.SendBufferInv) {b : Nat} {B : SendBuffer} {l : SendBufferLabel}
    (hb : s.buffers b = some B) (hc : B.closed = true) (h : s.next l = some s') :
    Kept s s' b B := by
  have hC := hI.chunks
  cases l with
  | run t => exact kept_openStep hI hb h
  | call t size =>
      simp only [next] at h
      split at h
      · cases h
        exact .of_memory hb rfl
      · cases h
  | write t off bytes =>
      obtain ⟨-, b₀, B₀, hB, -, rfl⟩ := hI.write_step h
      refine ⟨hb, ?_⟩
      by_cases ho : B.owner = B₀.owner
      · have hbefore := hC.closed_used b B hb hc
        rw [ho, ← hB.start] at hbefore
        have hself : (s.setChunk B₀.owner ((s.chunks B₀.owner).store (B₀.bufferPtr + off)
            bytes)).chunks B.owner = (s.chunks B.owner).store (B₀.bufferPtr + off) bytes := by
          simp [SendBufferState.setChunk, ho]
        rw [SendBufferState.bytes, hself, SendBufferState.bytes]
        exact SendBufferChunk.slice_store _ (by omega)
      · simp [SendBufferState.bytes, SendBufferState.setChunk, ho]
  | close t writeSize =>
      cases hp : s.pc t with
      | writing b₀ =>
          obtain ⟨B₀, hB⟩ : s.Knows t (.writing b₀) := hp ▸ hI.thread t
          simp only [next, hp, hB.buffer, Option.bind_some] at h
          split at h
          · cases h
            refine .of_memory ?_ (setChunk_buffer B₀.owner
              ((s.chunks B₀.owner).close writeSize) rfl B.owner)
            have hne : b ≠ b₀ := by
              rintro rfl
              obtain rfl : B = B₀ := Option.some.inj (hb.symm.trans hB.buffer)
              exact absurd (hB.notClosed.symm.trans hc) Bool.false_ne_true
            simpa [SendBufferState.goto, SendBufferState.setBuffer, SendBufferState.setChunk,
              hne] using hb
          · cases h
      | _ => simp [next, hp] at h
  | release b₀ =>
      obtain ⟨B₀, -, h⟩ := Option.bind_eq_some_iff.mp h
      split at h
      · cases h
        exact .of_memory hb rfl
      · cases h
  | exit t =>
      simp only [next] at h
      split at h
      · cases h
        exact .of_memory hb rfl
      · cases h


end Steps

/-! ## 5. The law of the SendBuffers -/

/-- **The law of the SendBuffers** in one state. -/
structure SendBufferLaw (s : SendBufferState) : Prop where
  /-- no chunk is used beyond its end, so `FreeSize` does not underflow -/
  used : ∀ ch, (s.chunks ch).usedSize ≤ SendBufferChunk.chunkSize ∧
    (s.chunks ch).freeSize + (s.chunks ch).usedSize = SendBufferChunk.chunkSize
  /-- a closed range lies inside its chunk, and so does the range of an open SendBuffer -/
  inside : ∀ b B, s.buffers b = some B →
    B.bufferPtr + (if B.closed then B.writeSize else B.allocSize) ≤ SendBufferChunk.chunkSize
  /-- the closed ranges of one chunk are pairwise disjoint -/
  disjoint : ∀ b b' B B', s.buffers b = some B → s.buffers b' = some B' → b ≠ b' →
    B.closed = true → B'.closed = true → B.owner = B'.owner →
    B.bufferPtr + B.writeSize ≤ B'.bufferPtr ∨ B'.bufferPtr + B'.writeSize ≤ B.bufferPtr
  /-- a closed range is disjoint from the range of a SendBuffer open in its chunk -/
  openDisjoint : ∀ b b' B B', s.buffers b = some B → s.buffers b' = some B' →
    B.closed = true → B'.closed = false → B.owner = B'.owner →
    B.bufferPtr + B.writeSize ≤ B'.bufferPtr ∨ B'.bufferPtr + B'.allocSize ≤ B.bufferPtr
  /-- a chunk that `Reset` is about to be applied to is owned by no live SendBuffer -/
  reset : ∀ t swap size, s.pc t = .reset swap size → ∃ ch, s.lSendBufferChunk t = some ch ∧
    ∀ b B, s.buffers b = some B → b ∉ s.released → B.owner ≠ ch
  /-- the asserted conditions hold -/
  asserted : ∀ t size, s.pc t = .testFree size ∨ s.pc t = .chunkOpen size → s.CurrentClosed t
  /-- `Open` of the current chunk returns a SendBuffer -/
  opens : ∀ t size, s.pc t = .chunkOpen size → ∃ ch r, s.lSendBufferChunk t = some ch ∧
    (s.chunks ch).open? size = some r

theorem SendBufferInv.law {s : SendBufferState} (hI : s.SendBufferInv) : s.SendBufferLaw := by
  have hC := hI.chunks
  have hfree : ∀ ch, (s.chunks ch).freeSize = SendBufferChunk.chunkSize - (s.chunks ch).usedSize :=
    fun ch => SendBufferChunk.freeSize_eq (hC.used ch)
  have hreserves : ∀ b B, s.buffers b = some B → B.closed = false → ∃ t, s.Reserves t b B := by
    intro b B hb hc
    obtain ⟨t, ht⟩ := hI.open_writing b B hb hc
    obtain ⟨B', hB'⟩ : s.Knows t (.writing b) := ht ▸ hI.thread t
    obtain rfl : B = B' := Option.some.inj (hb.symm.trans hB'.buffer)
    exact ⟨t, hB'⟩
  refine
    { used := fun ch => ⟨hC.used ch, ?_⟩
      inside := fun b B hb => ?_
      disjoint := hC.disjoint
      openDisjoint := fun b b' B B' hb hb' hc hc' ho => ?_
      reset := fun t swap size hp => ?_
      asserted := fun t size hp => ?_
      opens := fun t size hp => ?_ }
  · have := hC.used ch
    rw [hfree ch]
    omega
  · cases hc : B.closed with
    | true =>
        have := hC.closed_used b B hb hc
        have := hC.used B.owner
        rw [if_pos rfl]
        omega
    | false =>
        obtain ⟨t, hB⟩ := hreserves b B hb hc
        exact hB.room
  · obtain ⟨t, hB'⟩ := hreserves b' B' hb' hc'
    have := hC.closed_used b B hb hc
    rw [ho, ← hB'.start] at this
    exact .inl this
  · obtain ⟨-, ch, hch, hun⟩ : s.Knows t (.reset swap size) := hp ▸ hI.thread t
    exact ⟨ch, hch, fun b B hb _ => hun b B hb⟩
  · rcases hp with hp | hp
    · have hk : s.Knows t (.testFree size) := hp ▸ hI.thread t
      exact hk.2.1
    · have hk : s.Knows t (.chunkOpen size) := hp ▸ hI.thread t
      exact hk.1
  · obtain ⟨-, ch, hch, hroom⟩ : s.Knows t (.chunkOpen size) := hp ▸ hI.thread t
    have hle : ¬ size > (s.chunks ch).freeSize := by
      rw [hfree ch]
      omega
    exact ⟨ch, _, hch, if_neg hle⟩

/-- **The bytes of a closed SendBuffer never change.** On every run of any number of threads the
    law of the SendBuffers holds in every state, and from the state in which a SendBuffer is
    closed on its record and its bytes stay as they are. -/
theorem sendBuffer_immutable : ∀ s, Reach next always fresh s → s.SendBufferLaw ∧
    ∀ b B, s.buffers b = some B → B.closed = true →
      ∀ s', Reach next always s s' → s'.buffers b = some B ∧ s'.bytes B = s.bytes B := by
  intro s hr
  have hI : s.SendBufferInv :=
    hr.invariant sendBufferInv_fresh fun _ _ _ hI _ h => hI.step h
  refine ⟨hI.law, fun b B hb hc s' hr' => ?_⟩
  have hrun : s'.SendBufferInv ∧ Kept s s' b B := by
    refine hr'.invariant (I := fun x => x.SendBufferInv ∧ Kept s x b B)
      ⟨hI, hb, rfl⟩ fun x x' l hx _ h => ⟨hx.1.step h, ?_⟩
    have hk := kept_step hx.1 hx.2.buffer hc h
    exact ⟨hk.buffer, hk.bytes.trans hx.2.bytes⟩
  exact ⟨hrun.2.buffer, hrun.2.bytes⟩

/-- Thread 0 opens, writes and closes `[1, 2]`; then it opens a SendBuffer too large for the rest
    of its chunk, and the bytes of the first stay. -/
theorem sendBuffer_immutable_swap :
    ∃ s s' : SendBufferState,
      Trans.exec next always fresh ([.call 0 60000] ++ List.replicate 5 (.run 0) ++
        [.write 0 0 [1, 2], .close 0 2]) = some s ∧
      Trans.exec next always s ([.call 0 65535] ++ List.replicate 6 (.run 0)) = some s' ∧
      s'.pc 0 = .writing 1 ∧ s.SendBufferLaw ∧
      s.bytes ⟨0, 0, 60000, 2, true⟩ = [1, 2] ∧
      s'.bytes ⟨0, 0, 60000, 2, true⟩ = s.bytes ⟨0, 0, 60000, 2, true⟩ := by
  have h := sendBuffer_immutable _ (.of_exec ([.call 0 60000] ++ List.replicate 5 (.run 0) ++
    [.write 0 0 [1, 2], .close 0 2]) rfl)
  exact ⟨_, _, rfl, rfl, rfl, h.1, rfl, (h.2 0 _ rfl rfl _ (.of_exec ([.call 0 65535] ++
    List.replicate 6 (.run 0)) rfl)).2⟩

end SendBufferState

end ServerCore
