/-
  File:      ServerCore/SendChunkRecycle.lean
  Subject:   What becomes of the chunks that SendBufferManager::Open replaces (SendBuffer.cpp).

  Open pushes the chunk it replaces while it is still the current chunk of the thread, and Push
  ignores the current chunk: so the pool stays empty, and every Pop makes a chunk. A run recycles
  its chunks exactly if it replaces none (`recycles_iff`).
-/
import ServerCore.SendBufferInv

namespace ServerCore

open Trans

namespace SendBufferState

/-- The step `l` retires the chunk `ch`: a thread in the branch of `Open` for a chunk that has less
    room than is asked for calls `Push` of it. -/
def Retires (s : SendBufferState) (l : SendBufferLabel) (ch : Nat) : Prop :=
  ∃ t size, l = .run t ∧ s.pc t = .push size ∧ s.lSendBufferChunk t = some ch

/-- The step `l` to `s'` is a `Pop` that returns the chunk `ch`. -/
def Pops (s s' : SendBufferState) (l : SendBufferLabel) (ch : Nat) : Prop :=
  ∃ t swap size, l = .run t ∧ s.pc t = .pop swap size ∧ s'.lSendBufferChunk t = some ch

/-- In the run `ls` no chunk is constructed before a `Pop` returns the chunk `ch`. -/
def PoppedFirst (ch : Nat) : SendBufferState → List SendBufferLabel → Prop
  | _, [] => True
  | s, l :: ls => ∀ s', s.next l = some s' →
      s.Pops s' l ch ∨ s'.nextChunk = s.nextChunk ∧ PoppedFirst ch s' ls

/-- **The run recycles its chunks**: a chunk that is retired is entered into `_sendBufferChunks`
    exactly once, and is popped before a new chunk is constructed. -/
def Recycles : SendBufferState → List SendBufferLabel → Prop
  | _, [] => True
  | s, l :: ls => ∀ s', s.next l = some s' →
      (∀ ch, s.Retires l ch → s'.sendBufferChunks.count ch = 1 ∧ PoppedFirst ch s' ls) ∧
        Recycles s' ls

/-- The run retires no chunk. -/
def RetiresNone : SendBufferState → List SendBufferLabel → Prop
  | _, [] => True
  | s, l :: ls => ∀ s', s.next l = some s' → (∀ ch, ¬ s.Retires l ch) ∧ RetiresNone s' ls

/-- **A run recycles its chunks exactly if it retires none.** -/
theorem recycles_iff_of_inv : ∀ (ls : List SendBufferLabel) {s : SendBufferState},
    s.SendBufferInv → (Recycles s ls ↔ RetiresNone s ls)
  | [], _, _ => Iff.rfl
  | l :: ls, s, hI => by
      refine forall_congr' fun s' => forall_congr' fun h => ?_
      have hI' := hI.step h
      refine and_congr (forall_congr' fun ch => ?_) (recycles_iff_of_inv ls hI')
      -- the pool is empty after the push too
      have hcount : s'.sendBufferChunks.count ch = 0 := by
        rw [hI'.chunks.pool]
        rfl
      refine forall_congr' fun hretires => iff_of_false (fun h => ?_) id
      omega

/-- **The chunks are recycled only where there is nothing to recycle.** -/
theorem recycles_iff (ls : List SendBufferLabel) : Recycles fresh ls ↔ RetiresNone fresh ls :=
  recycles_iff_of_inv ls sendBufferInv_fresh

/-- A run with a step that retires a chunk. -/
theorem not_retiresNone {l : SendBufferLabel} {s₁ s₂ : SendBufferState} {ch : Nat}
    (hretires : s₁.Retires l ch) (h : s₁.next l = some s₂) (ls' : List SendBufferLabel) :
    ∀ (ls : List SendBufferLabel) {s : SendBufferState}, exec next always s ls = some s₁ →
      ¬ RetiresNone s (ls ++ l :: ls')
  | [], s, hrun, hnone => by
      obtain rfl := Option.some.inj hrun
      exact (hnone s₂ h).1 ch hretires
  | l₀ :: ls, s, hrun, hnone => by
      obtain ⟨-, s₀, h₀, hrest⟩ := exec_cons_eq_some hrun
      exact not_retiresNone hretires h ls' ls hrest (hnone s₀ h₀).2

/-- A thread has used 60000 bytes of its first chunk and asks for 65535: the chunk is retired, and
    the next chunk is a new one. -/
theorem exists_retired :
    ∃ s s₁ s', exec next always fresh ([.call 0 60000] ++ List.replicate 5 (.run 0) ++
        [.close 0 60000, .call 0 65535, .run 0, .run 0]) = some s ∧ s.Retires (.run 0) 0 ∧
      s.next (.run 0) = some s₁ ∧ exec next always s₁ [.run 0] = some s' ∧ s'.nextChunk = 2 ∧
      s'.sendBufferChunks = [] :=
  ⟨_, _, _, rfl, ⟨0, 65535, rfl, rfl, rfl⟩, rfl, rfl, rfl, rfl⟩

/-- **A chunk with too little room is replaced by a new one**: it is retired, the pool stays empty,
    and the next `Pop` makes the second chunk. -/
theorem retired_not_recycled :
    ∃ s s', exec next always fresh ([.call 0 60000] ++ List.replicate 5 (.run 0) ++
        [.close 0 60000, .call 0 65535, .run 0, .run 0]) = some s ∧ s.Retires (.run 0) 0 ∧
      exec next always s [.run 0, .run 0] = some s' ∧ s'.nextChunk = 2 ∧
      s'.sendBufferChunks = [] ∧
      ¬ Recycles fresh (([.call 0 60000] ++ List.replicate 5 (.run 0) ++
        [.close 0 60000, .call 0 65535, .run 0, .run 0]) ++ [.run 0, .run 0]) := by
  obtain ⟨s, s₁, s', hrun, hretires, hstep, hrest, hnext, hpool⟩ := exists_retired
  have hrun' : exec next always s [.run 0, .run 0] = some s' :=
    (exec_cons (show always s (SendBufferLabel.run 0) from trivial) hstep [.run 0]).trans hrest
  refine ⟨s, s', hrun, hretires, hrun', hnext, hpool, fun h => ?_⟩
  have hnone := (recycles_iff_of_inv _ sendBufferInv_fresh).mp h
  exact not_retiresNone hretires hstep [.run 0] _ hrun hnone

end SendBufferState

end ServerCore
