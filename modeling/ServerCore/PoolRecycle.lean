/-
  File:      ServerCore/PoolRecycle.lean
  Subject:   Where released blocks go (MemoryPoolManager::Release, MemoryPool.cpp).

  `PoolUse` are the calls one after another; each of them is a run of one thread of the pool
  machine (`exec_toState`). A block is taken from the pool of the lower bound of the size, and
  given back to the pool of the size itself: so it goes back exactly if the size is that of a pool,
  and is freed otherwise.

  The released blocks are all back in their pools, and a pool has never more blocks than were held
  of it at once, exactly on the runs that release only blocks of the sizes of the pools, or larger
  than all of them (`pool_recycles_iff`).
-/
import ServerCore.MemoryPool
import Mathlib.Data.List.Perm.Subperm

namespace ServerCore

open Trans

/-! ## 1. The calls, one after another -/

/-- The manager, and the blocks that are allocated. -/
structure PoolUse where
  manager : MemoryPoolManager
  allocated : List Nat

/-- A call. -/
inductive PoolCall where
  /-- `Allocate(size)` -/
  | allocate (size : Nat)
  /-- `Release` of the block `b` -/
  | release (b : Nat)
  deriving DecidableEq, Repr

namespace PoolUse

/-- Nothing allocated. -/
def fresh : PoolUse := ⟨.new, []⟩

def next (s : PoolUse) : PoolCall → Option PoolUse
  | .allocate size =>
      if size < 2 ^ 32 then
        some ⟨(s.manager.allocate size).1, (s.manager.allocate size).2 :: s.allocated⟩
      else none
  | .release b =>
      if b ∈ s.allocated then some ⟨s.manager.release b, s.allocated.erase b⟩ else none

/-- The state of the pool machine between the calls. -/
def toState (s : PoolUse) : PoolState := ⟨s.manager, s.allocated, fun _ => .idle⟩

/-- The actions of thread 0 in a call. -/
def actions (s : PoolUse) : PoolCall → List PoolLabel
  | .allocate size => [.allocate 0 size, .run 0, .run 0]
  | .release b => .release 0 b :: match findPool (s.manager.blocks b).allocSize with
      | none => [.run 0, .run 0]
      | some _ => [.run 0, .run 0, .run 0]

/-- A thread that moves twice. -/
theorem goto_goto (s : PoolState) (t : Nat) (p p' : PoolPc) (m m' : MemoryPoolManager)
    (bs bs' : List Nat) : (s.goto t p m bs).goto t p' m' bs' = s.goto t p' m' bs' := by
  unfold PoolState.goto
  rw [Function.update_idem]

/-- Thread 0 is back where it was. -/
theorem goto_idle (s : PoolUse) (m : MemoryPoolManager) (bs : List Nat) :
    s.toState.goto 0 .idle m bs = toState ⟨m, bs⟩ := by
  have hidle : Function.update (fun _ => PoolPc.idle) 0 .idle = fun _ : Nat => PoolPc.idle :=
    Function.update_eq_self 0 _
  unfold PoolState.goto toState
  rw [hidle]

/-- **A call is a run of a thread.** -/
theorem exec_toState {s s' : PoolUse} {l : PoolCall} (h : s.next l = some s') :
    exec PoolState.next always s.toState (s.actions l) = some s'.toState := by
  cases l with
  | allocate size =>
      simp only [next] at h
      split at h
      · rename_i hsize
        obtain rfl := Option.some.inj h
        have hcall : s.toState.next (.allocate 0 size) =
            some (s.toState.goto 0 (.header size) s.manager s.allocated) := if_pos ⟨rfl, hsize⟩
        have hheader : (s.toState.goto 0 (.header size) s.manager s.allocated).next (.run 0) =
            some (s.toState.goto 0 (.attach (s.manager.header size).2 size)
              (s.manager.header size).1 s.allocated) := congrArg some (goto_goto ..)
        have hattach : (s.toState.goto 0 (.attach (s.manager.header size).2 size)
            (s.manager.header size).1 s.allocated).next (.run 0) =
            some (s.toState.goto 0 .idle (s.manager.allocate size).1
              ((s.manager.allocate size).2 :: s.allocated)) := congrArg some (goto_goto ..)
        rw [actions, exec_cons trivial hcall, exec_cons trivial hheader,
          exec_cons trivial hattach, exec, goto_idle]
      · cases h
  | release b =>
      simp only [next] at h
      split at h
      · rename_i hmem
        obtain rfl := Option.some.inj h
        have hcall : s.toState.next (.release 0 b) =
            some (s.toState.goto 0 (.find b) s.manager (s.allocated.erase b)) :=
          if_pos ⟨rfl, hmem⟩
        have hfind : (s.toState.goto 0 (.find b) s.manager (s.allocated.erase b)).next (.run 0) =
            some (s.toState.goto 0 (.found b (findPool (s.manager.blocks b).allocSize)) s.manager
              (s.allocated.erase b)) := congrArg some (goto_goto ..)
        rw [actions, exec_cons trivial hcall]
        unfold MemoryPoolManager.release
        cases hkey : findPool (s.manager.blocks b).allocSize with
        | none =>
            rw [hkey] at hfind
            have hfree : (s.toState.goto 0 (.found b none) s.manager (s.allocated.erase b)).next
                (.run 0) = some (s.toState.goto 0 .idle (s.manager.free b)
                  (s.allocated.erase b)) := congrArg some (goto_goto ..)
            rw [exec_cons trivial hfind, exec_cons trivial hfree, exec, goto_idle]
        | some key =>
            rw [hkey] at hfind
            have hclear : (s.toState.goto 0 (.found b (some key)) s.manager
                (s.allocated.erase b)).next (.run 0) =
                some (s.toState.goto 0 (.pushBack key b) (s.manager.setAllocSize b 0)
                  (s.allocated.erase b)) := congrArg some (goto_goto ..)
            have hpush : (s.toState.goto 0 (.pushBack key b) (s.manager.setAllocSize b 0)
                (s.allocated.erase b)).next (.run 0) =
                some (s.toState.goto 0 .idle ((s.manager.setAllocSize b 0).pushBack key b)
                  (s.allocated.erase b)) := congrArg some (goto_goto ..)
            rw [exec_cons trivial hfind, exec_cons trivial hclear, exec_cons trivial hpush, exec,
              goto_idle]
      · cases h

/-- **Between the calls the pool machine is in a state it reaches.** -/
theorem reach_toState {s : PoolUse} (h : Reach next always fresh s) :
    Reach PoolState.next always PoolState.fresh s.toState := by
  induction h with
  | start => exact .start
  | step s s' l _ _ hs ih => exact ih.trans (.of_exec _ (exec_toState hs))

theorem poolInv {s : PoolUse} (h : Reach next always fresh s) : s.toState.PoolInv :=
  (reach_toState h).invariant PoolState.poolInv_fresh fun _ _ _ hI _ hs => hI.step hs

/-! ## 2. What a call does -/

section Calls

variable {s s' : PoolUse}

/-- A size without a lower bound is larger than all pools. -/
theorem lt_of_lowerBound_eq_none {size : Nat} (h : lowerBound size = none) :
    ∀ key ∈ poolSizes, key < size := by
  intro key hkey
  have hnot := List.find?_eq_none.mp h key hkey
  simpa using hnot

/-- **What `Allocate` does**: it takes the last block of a queue, or a new one, which has the size
    of a pool only if the queue of that pool is empty. -/
theorem next_allocate {size : Nat} (h : s.next (.allocate size) = some s') :
    (∃ n, n < 2 ^ 32 ∧ (∀ key ∈ poolSizes, n = key → s.manager.queue key = []) ∧
      s' = ⟨(s.manager.malloc n).1.setAllocSize s.manager.nextBlock size,
        s.manager.nextBlock :: s.allocated⟩) ∨
    ∃ key b, (s.manager.queue key).getLast? = some b ∧
      s' = ⟨(s.manager.setQueue key (s.manager.queue key).dropLast).setAllocSize b size,
        b :: s.allocated⟩ := by
  simp only [next] at h
  split at h
  · rename_i hsize
    obtain rfl := Option.some.inj h
    unfold MemoryPoolManager.allocate MemoryPoolManager.header
    cases hbound : lowerBound size with
    | none =>
        refine .inl ⟨size, hsize, fun key hkey e => ?_, rfl⟩
        exact absurd (lt_of_lowerBound_eq_none hbound key hkey) (by omega)
    | some key =>
        dsimp only
        unfold MemoryPoolManager.pop
        cases hlast : (s.manager.queue key).getLast? with
        | none =>
            refine .inl ⟨key, lt_of_mem_poolSizes (lowerBound_eq_some hbound).1,
              fun key' _ e => ?_, rfl⟩
            rw [← e]
            exact List.getLast?_eq_none_iff.mp hlast
        | some b => exact .inr ⟨key, b, hlast, rfl⟩
  · nomatch h

/-- **What `Release` does**: the block goes back to the pool of its size, or without one is
    freed. -/
theorem next_release {b : Nat} (h : s.next (.release b) = some s') :
    b ∈ s.allocated ∧
    ((findPool (s.manager.blocks b).allocSize = none ∧
        s' = ⟨s.manager.free b, s.allocated.erase b⟩) ∨
      ((s.manager.blocks b).allocSize ∈ poolSizes ∧
        s' = ⟨(s.manager.setAllocSize b 0).pushBack (s.manager.blocks b).allocSize b,
          s.allocated.erase b⟩)) := by
  simp only [next] at h
  split at h
  · rename_i hmem
    obtain rfl := Option.some.inj h
    unfold MemoryPoolManager.release
    cases hfind : findPool (s.manager.blocks b).allocSize with
    | none => exact ⟨hmem, .inl ⟨rfl, rfl⟩⟩
    | some key =>
        obtain ⟨hkey, rfl⟩ := findPool_eq_some hfind
        exact ⟨hmem, .inr ⟨hkey, rfl⟩⟩
  · nomatch h

/-- A block stays as large as it is, and freed. -/
theorem next_block {l : PoolCall} (h : s.next l = some s') {b : Nat}
    (hb : b < s.manager.nextBlock) :
    b < s'.manager.nextBlock ∧ (s'.manager.blocks b).bytes = (s.manager.blocks b).bytes ∧
      ((s.manager.blocks b).freed = true → (s'.manager.blocks b).freed = true) := by
  cases l with
  | allocate size =>
      rcases next_allocate h with ⟨n, -, -, rfl⟩ | ⟨key, b', -, rfl⟩
      · have hold := s.manager.blocks_malloc_of_ne n (Nat.ne_of_lt hb)
        refine ⟨Nat.lt_succ_of_lt hb, ?_, fun hf => ?_⟩
        · rw [MemoryPoolManager.bytes_setAllocSize, hold]
        · rwa [MemoryPoolManager.freed_setAllocSize, hold]
      · refine ⟨hb, ?_, fun hf => ?_⟩
        · rw [MemoryPoolManager.bytes_setAllocSize]
          rfl
        · rw [MemoryPoolManager.freed_setAllocSize]
          exact hf
  | release b' =>
      obtain ⟨-, ⟨-, rfl⟩ | ⟨-, rfl⟩⟩ := next_release h
      · refine ⟨hb, MemoryPoolManager.bytes_free .., fun hf => ?_⟩
        by_cases he : b = b'
        · rw [he]
          exact s.manager.freed_free_self b'
        · exact (s.manager.freed_free_of_ne he).trans hf
      · refine ⟨hb, MemoryPoolManager.bytes_setAllocSize .., fun hf => ?_⟩
        exact (MemoryPoolManager.freed_setAllocSize s.manager b' 0 b).trans hf

end Calls

/-! ## 3. The blocks of a pool -/

/-- The block `b` was allocated with the size of the pool `key`. -/
def fromPool (s : PoolUse) (key b : Nat) : Bool :=
  (s.manager.blocks b).bytes == key + sizeofMemoryHeader

/-- The number of blocks that were allocated for the pool `key`. -/
def mallocs (s : PoolUse) (key : Nat) : Nat :=
  (List.range s.manager.nextBlock).countP (s.fromPool key)

/-- The number of blocks of the pool `key` that are held. -/
def held (s : PoolUse) (key : Nat) : Nat := s.allocated.countP (s.fromPool key)

/-- The most blocks of the pool `key` that are held at once during the calls `ls`. -/
def peakHeld (key : Nat) : PoolUse → List PoolCall → Nat
  | s, [] => s.held key
  | s, l :: ls => max (s.held key) (((s.next l).map fun s' => s'.peakHeld key ls).getD 0)

/-- The call gives no block to `free` that a pool could take. -/
def GoesBack (s : PoolUse) : PoolCall → Prop
  | .allocate _ => True
  | .release b => (s.manager.blocks b).allocSize ∈ poolSizes ∨
      SendBufferChunk.chunkSize < (s.manager.blocks b).allocSize

instance (s : PoolUse) (l : PoolCall) : Decidable (s.GoesBack l) :=
  match l with
  | .allocate _ => .isTrue trivial
  | .release _ => inferInstanceAs (Decidable (_ ∨ _))

/-- **The released blocks are back in their pools** after the calls `ls`: a block of a pool is held
    or in its queue, only blocks larger than all pools were freed, and no more were allocated for a
    pool than were held of it at once. -/
structure Recycled (ls : List PoolCall) (s : PoolUse) : Prop where
  pushed : ∀ key ∈ poolSizes, ∀ b, b < s.manager.nextBlock → s.fromPool key b = true →
    b ∈ s.allocated ∨ b ∈ s.manager.queue key
  freed : ∀ b, (s.manager.blocks b).freed = true → ∀ key ∈ poolSizes,
    key + sizeofMemoryHeader < (s.manager.blocks b).bytes
  mallocs : ∀ key ∈ poolSizes, s.mallocs key ≤ fresh.peakHeld key ls

/-! ## 4. Calls whose blocks go back -/

/-- Only blocks larger than all pools were freed. -/
def FreedLarge (s : PoolUse) : Prop :=
  ∀ b, (s.manager.blocks b).freed = true → ∀ key ∈ poolSizes,
    key + sizeofMemoryHeader < (s.manager.blocks b).bytes

section Steps

variable {s s' : PoolUse} {l : PoolCall}

theorem poolInv_next (hI : s.toState.PoolInv) (h : s.next l = some s') : s'.toState.PoolInv :=
  (Reach.of_exec _ (exec_toState h)).invariant hI fun _ _ _ hI _ hs => hI.step hs

/-- The size of a block that is allocated. -/
theorem bytes_of_allocated (hI : s.toState.PoolInv) {b : Nat} (hb : b ∈ s.allocated) :
    (s.manager.blocks b).bytes =
      capacity (s.manager.blocks b).allocSize + sizeofMemoryHeader :=
  hI.sized b .allocated hb

theorem freedLarge_next (hI : s.toState.PoolInv) (hF : s.FreedLarge) (hl : s.GoesBack l)
    (h : s.next l = some s') : s'.FreedLarge := by
  intro b hfreed
  cases l with
  | allocate size =>
      rcases next_allocate h with ⟨n, -, -, rfl⟩ | ⟨key, b', -, rfl⟩
      · rw [MemoryPoolManager.freed_setAllocSize] at hfreed
        rw [MemoryPoolManager.bytes_setAllocSize]
        by_cases hb : b = s.manager.nextBlock
        · rw [hb, MemoryPoolManager.blocks_malloc_self] at hfreed
          nomatch hfreed
        · rw [s.manager.blocks_malloc_of_ne n hb] at hfreed ⊢
          exact hF b hfreed
      · rw [MemoryPoolManager.freed_setAllocSize] at hfreed
        rw [MemoryPoolManager.bytes_setAllocSize]
        exact hF b hfreed
  | release b' =>
      obtain ⟨hmem, ⟨hnone, rfl⟩ | ⟨-, rfl⟩⟩ := next_release h
      · rw [MemoryPoolManager.bytes_free]
        by_cases hb : b = b'
        · intro key hkey
          have hlarge := hl.resolve_left fun hpool => by
            have hnot := List.find?_eq_none.mp hnone _ hpool
            simp at hnot
          have hle := le_of_mem_poolSizes key hkey
          have hroom := le_capacity (s.manager.blocks b').allocSize
          rw [hb, bytes_of_allocated hI hmem]
          omega
        · exact hF b ((s.manager.freed_free_of_ne hb).symm.trans hfreed)
      · have hold := MemoryPoolManager.freed_setAllocSize s.manager b' 0 b
        have hbytes := MemoryPoolManager.bytes_setAllocSize s.manager b' 0 b
        intro key hkey
        exact hbytes ▸ hF b (hold ▸ hfreed) key hkey

/-- **Every block of a pool** is held or in its queue. -/
theorem pushed_of_inv (hI : s.toState.PoolInv) (hF : s.FreedLarge) {key b : Nat}
    (hkey : key ∈ poolSizes) (hb : b < s.manager.nextBlock) (hfrom : s.fromPool key b = true) :
    b ∈ s.allocated ∨ b ∈ s.manager.queue key := by
  have hbytes : (s.manager.blocks b).bytes = key + sizeofMemoryHeader := eq_of_beq hfrom
  obtain ⟨x, hx⟩ := hI.place b
  have hat := (hx x).mpr rfl
  cases x with
  | unborn => exact absurd hb (Nat.not_lt.mpr hat)
  | queued key' =>
      have hsize := (hI.sized b _ hat).2
      have hsame : key' = key := by
        have e : key' + sizeofMemoryHeader = key + sizeofMemoryHeader := hsize.symm.trans hbytes
        omega
      exact .inr (hsame ▸ hat)
  | allocated => exact .inl hat
  | thread t => nomatch hat
  | freed => exact absurd (hF b hat key hkey) (by omega)

/-- With its queue empty, the blocks of a pool are all held. -/
theorem mallocs_le_held (hI : s.toState.PoolInv) (hF : s.FreedLarge) {key : Nat}
    (hkey : key ∈ poolSizes) (hempty : s.manager.queue key = []) :
    s.mallocs key ≤ s.held key := by
  unfold mallocs held
  rw [List.countP_eq_length_filter, List.countP_eq_length_filter]
  refine (List.subperm_of_subset (List.nodup_range.filter _) fun b hb => ?_).length_le
  obtain ⟨hrange, hfrom⟩ := List.mem_filter.mp hb
  rcases pushed_of_inv hI hF hkey (List.mem_range.mp hrange) hfrom with hmem | hmem
  · exact List.mem_filter.mpr ⟨hmem, hfrom⟩
  · rw [hempty] at hmem
    nomatch hmem

/-- **A block is allocated for a pool only with its queue empty.** -/
theorem mallocs_next (h : s.next l = some s') {key : Nat} (hkey : key ∈ poolSizes) :
    s'.mallocs key = s.mallocs key ∨ s'.manager.queue key = [] := by
  have hold : (List.range s.manager.nextBlock).countP (s'.fromPool key) = s.mallocs key := by
    refine List.countP_congr fun b hb => ?_
    unfold fromPool
    rw [(next_block h (List.mem_range.mp hb)).2.1]
  cases l with
  | allocate size =>
      rcases next_allocate h with ⟨n, hn, hempty, rfl⟩ | ⟨key', b', -, rfl⟩
      · by_cases e : n = key
        · exact .inr (hempty key hkey e)
        · -- the new block has another size
          refine .inl ?_
          have hnew : fromPool ⟨(s.manager.malloc n).1.setAllocSize s.manager.nextBlock size,
              s.manager.nextBlock :: s.allocated⟩ key s.manager.nextBlock = false := by
            unfold fromPool
            rw [MemoryPoolManager.bytes_setAllocSize, MemoryPoolManager.blocks_malloc_self,
              malloc_bytes hn, beq_eq_false_iff_ne]
            dsimp only
            omega
          show (List.range (s.manager.nextBlock + 1)).countP _ = _
          rw [List.range_succ, List.countP_append, hold, List.countP_singleton, hnew,
            if_neg Bool.false_ne_true, Nat.add_zero]
      · exact .inl hold
  | release b' =>
      obtain ⟨-, ⟨-, rfl⟩ | ⟨-, rfl⟩⟩ := next_release h
      · exact .inl hold
      · exact .inl hold

/-- **What the calls of a run allocate for a pool** is held of it at some moment of the run. -/
theorem mallocs_le_peak {key : Nat} (hkey : key ∈ poolSizes) : ∀ (ls : List PoolCall)
    {s s' : PoolUse}, s.toState.PoolInv → s.FreedLarge → exec next GoesBack s ls = some s' →
    s'.FreedLarge ∧ s'.mallocs key ≤ max (s.mallocs key) (s.peakHeld key ls)
  | [], s, s', _, hF, h => by
      obtain rfl := Option.some.inj h
      exact ⟨hF, Nat.le_max_left ..⟩
  | l :: ls, s, s', hI, hF, h => by
      obtain ⟨hl, s₁, h₁, h₂⟩ := exec_cons_eq_some h
      have hI₁ := poolInv_next hI h₁
      have hF₁ := freedLarge_next hI hF hl h₁
      obtain ⟨hF', hrest⟩ := mallocs_le_peak hkey ls hI₁ hF₁ h₂
      refine ⟨hF', ?_⟩
      have hone : s₁.mallocs key ≤ max (s.mallocs key) (s₁.held key) := by
        rcases mallocs_next h₁ hkey with e | hempty
        · exact Nat.le_trans (Nat.le_of_eq e) (Nat.le_max_left ..)
        · exact Nat.le_trans (mallocs_le_held hI₁ hF₁ hkey hempty) (Nat.le_max_right ..)
      have hpeak : s₁.held key ≤ s₁.peakHeld key ls := by
        cases ls with
        | nil => exact Nat.le_refl _
        | cons l' ls' => exact Nat.le_max_left ..
      rw [peakHeld, h₁, Option.map_some, Option.getD_some]
      omega

/-- A freed block stays freed, and as large as it is. -/
theorem freed_exec {b : Nat} : ∀ (ls : List PoolCall) {s s' : PoolUse},
    b < s.manager.nextBlock → (s.manager.blocks b).freed = true →
    exec next always s ls = some s' → (s'.manager.blocks b).freed = true ∧
      (s'.manager.blocks b).bytes = (s.manager.blocks b).bytes
  | [], s, s', _, hfreed, h => by
      obtain rfl := Option.some.inj h
      exact ⟨hfreed, rfl⟩
  | l :: ls, s, s', hb, hfreed, h => by
      obtain ⟨-, s₁, h₁, h₂⟩ := exec_cons_eq_some h
      obtain ⟨hb₁, hbytes, hkeep⟩ := next_block h₁ hb
      obtain ⟨hfreed', hbytes'⟩ := freed_exec ls hb₁ (hkeep hfreed) h₂
      exact ⟨hfreed', hbytes'.trans hbytes⟩

/-- A block that does not go back is freed, and is no larger than a pool. -/
theorem freed_of_not_goesBack (hI : s.toState.PoolInv) (hl : ¬ s.GoesBack l)
    (h : s.next l = some s') : ∃ b key, b < s'.manager.nextBlock ∧ key ∈ poolSizes ∧
      (s'.manager.blocks b).freed = true ∧
      (s'.manager.blocks b).bytes = key + sizeofMemoryHeader := by
  cases l with
  | allocate size => exact absurd trivial hl
  | release b =>
      obtain ⟨hpool, hsize⟩ := not_or.mp hl
      obtain ⟨hmem, ⟨-, rfl⟩ | ⟨hpool', -⟩⟩ := next_release h
      · have hbound : ∃ key, lowerBound (s.manager.blocks b).allocSize = some key := by
          cases hnone : lowerBound (s.manager.blocks b).allocSize with
          | none => exact absurd (lt_of_lowerBound_eq_none hnone _ (by decide)) hsize
          | some key => exact ⟨key, rfl⟩
        obtain ⟨key, hkey⟩ := hbound
        have hlt : b < s.manager.nextBlock := by
          refine Nat.lt_of_not_le fun hle => ?_
          nomatch (hI.only (x := .allocated) hmem .unborn).mp hle
        refine ⟨b, key, hlt, (lowerBound_eq_some hkey).1, ?_, ?_⟩
        · dsimp only
          rw [MemoryPoolManager.free, MemoryPoolManager.blocks_setBlock_self]
        · rw [MemoryPoolManager.bytes_free, bytes_of_allocated hI hmem, capacity, hkey]
          rfl
      · exact absurd hpool' hpool

/-- **A block that did not go back** is missed for good. -/
theorem goesBack_of_freedLarge : ∀ (ls : List PoolCall) {s s' : PoolUse}, s.toState.PoolInv →
    exec next always s ls = some s' → s'.FreedLarge → exec next GoesBack s ls = some s'
  | [], _, _, _, h, _ => h
  | l :: ls, s, s', hI, h, hF => by
      obtain ⟨-, s₁, h₁, h₂⟩ := exec_cons_eq_some h
      have hl : s.GoesBack l := by
        refine Decidable.byContradiction fun hl => ?_
        obtain ⟨b, key, hb, hkey, hfreed, hbytes⟩ := freed_of_not_goesBack hI hl h₁
        obtain ⟨hfreed', hbytes'⟩ := freed_exec ls hb hfreed h₂
        exact absurd (hF b hfreed' key hkey) (by omega)
      rw [exec_cons hl h₁]
      exact goesBack_of_freedLarge ls (poolInv_next hI h₁) h₂ hF

end Steps

/-- **When the pools work**: after any calls the released blocks are back in their pools exactly if
    each block that was released had the size of a pool, or was larger than all pools. -/
theorem pool_recycles_iff {ls : List PoolCall} {s : PoolUse}
    (h : exec next always fresh ls = some s) :
    Recycled ls s ↔ exec next GoesBack fresh ls = some s := by
  have hI : fresh.toState.PoolInv := PoolState.poolInv_fresh
  constructor
  · exact fun hR => goesBack_of_freedLarge ls hI h hR.freed
  · intro hback
    have hfresh : fresh.FreedLarge := fun b hb => nomatch hb
    have hsmall : 32 ∈ poolSizes := by decide
    have hF : s.FreedLarge := (mallocs_le_peak hsmall ls hI hfresh hback).1
    have hIs : s.toState.PoolInv := poolInv (.of_exec ls h)
    refine ⟨fun key hkey b hb hfrom => pushed_of_inv hIs hF hkey hb hfrom, hF, fun key hkey => ?_⟩
    have hmallocs := (mallocs_le_peak hkey ls hI hfresh hback).2
    rwa [show fresh.mallocs key = 0 from rfl, Nat.zero_max] at hmallocs

/-- Two blocks of 64 bytes, one after the other, are one. -/
theorem pool_recycles_sixty_four :
    ∃ s, exec next always fresh [.allocate 64, .release 0, .allocate 64] = some s ∧
      Recycled [.allocate 64, .release 0, .allocate 64] s ∧ s.mallocs 64 = 1 :=
  ⟨_, rfl, (pool_recycles_iff rfl).mpr rfl, rfl⟩

/-- **A block of 33 bytes** is taken from the pool of 64 and freed: the pool allocates another. -/
theorem pool_frees_small_block :
    ∃ s, exec next always fresh [.allocate 33, .release 0, .allocate 33] = some s ∧
      ¬ Recycled [.allocate 33, .release 0, .allocate 33] s ∧
      (s.manager.blocks 0).freed = true ∧ s.mallocs 64 = 2 ∧
      fresh.peakHeld 64 [.allocate 33, .release 0, .allocate 33] = 1 := by
  refine ⟨_, rfl, fun h => ?_, rfl, rfl, rfl⟩
  exact absurd (h.freed 0 rfl 64 (by decide)) (by decide)

end PoolUse

end ServerCore
