/-
  File:      ServerCore/MemoryPool.lean
  Subject:   MemoryPool and MemoryPoolManager (MemoryPool.cpp), and the machine of the threads
             that use them.

  A block is known by its identity: `malloc` makes a new one, and a freed block's identity never
  comes back. `Allocate` looks its pool up by `lower_bound` of the size and stores the size itself
  in the header; `Release` looks the pool up by `find` of the size in the header. The map of the
  pools never changes, and each queue is changed under the lock of its pool.

  `PoolState` takes the two functions apart into their accesses to a queue and to a header; between
  two of them other threads run. Every block is in one place, its pool's queue, the callers or one
  thread, and is as large as that place needs (`PoolInv`), from which the safety of the pools
  follows (`pool_safety`).
-/
import ServerCore.SendBuffer

namespace ServerCore

open Trans

/-! ## 1. The pools -/

/-- `sizeof(MemoryHeader)` -/
def sizeofMemoryHeader : Nat := 4

/-- The keys of `_pools`, as the constructor makes them and the map orders them. -/
def poolSizes : List Nat :=
  List.range' 32 32 32 ++ List.range' (1024 + 128) 24 128 ++ [SendBufferChunk.chunkSize]

/-- `_pools.lower_bound(size)`; `none`: the end -/
def lowerBound (size : Nat) : Option Nat := poolSizes.find? fun key => size ≤ key

/-- `_pools.find(size)`; `none`: the end -/
def findPool (size : Nat) : Option Nat := poolSizes.find? fun key => key == size

/-- A block `malloc` returned: its bytes, with the header; the `allocSize` of the header; whether
    it was freed. -/
structure MemoryBlock where
  bytes : Nat
  allocSize : Nat
  freed : Bool
  deriving DecidableEq, Repr

/-- `MemoryPoolManager`: the blocks allocated so far, and `_queue` of the pool of each key. -/
structure MemoryPoolManager where
  blocks : Nat → MemoryBlock
  nextBlock : Nat
  queue : Nat → List Nat

namespace MemoryPoolManager

/-- Nothing allocated. -/
def new : MemoryPoolManager := ⟨fun _ => ⟨0, 0, false⟩, 0, fun _ => []⟩

/-- The block `b` becomes `block`. -/
def setBlock (m : MemoryPoolManager) (b : Nat) (block : MemoryBlock) : MemoryPoolManager :=
  { m with blocks := Function.update m.blocks b block }

/-- The queue of the pool `key` becomes `bs`. -/
def setQueue (m : MemoryPoolManager) (key : Nat) (bs : List Nat) : MemoryPoolManager :=
  { m with queue := Function.update m.queue key bs }

@[simp] theorem blocks_setBlock_self (m : MemoryPoolManager) (b : Nat) (block : MemoryBlock) :
    (m.setBlock b block).blocks b = block := Function.update_self ..

theorem blocks_setBlock_of_ne (m : MemoryPoolManager) {b b' : Nat} (block : MemoryBlock)
    (h : b' ≠ b) : (m.setBlock b block).blocks b' = m.blocks b' := Function.update_of_ne h ..

@[simp] theorem queue_setQueue_self (m : MemoryPoolManager) (key : Nat) (bs : List Nat) :
    (m.setQueue key bs).queue key = bs := Function.update_self ..

theorem queue_setQueue_of_ne (m : MemoryPoolManager) {key key' : Nat} (bs : List Nat)
    (h : key' ≠ key) : (m.setQueue key bs).queue key' = m.queue key' := Function.update_of_ne h ..

/-- `malloc(size + sizeof(MemoryHeader))`, a sum in 64 bits: the block `nextBlock`. Its header is
    written before it is read. -/
def malloc (m : MemoryPoolManager) (size : Nat) : MemoryPoolManager × Nat :=
  ({ m.setBlock m.nextBlock ⟨(size + sizeofMemoryHeader) % 2 ^ 64, 0, false⟩ with
      nextBlock := m.nextBlock + 1 }, m.nextBlock)

/-- `header->allocSize = size` -/
def setAllocSize (m : MemoryPoolManager) (b size : Nat) : MemoryPoolManager :=
  m.setBlock b { m.blocks b with allocSize := size }

/-- `free(header)` -/
def free (m : MemoryPoolManager) (b : Nat) : MemoryPoolManager :=
  m.setBlock b { m.blocks b with freed := true }

@[simp] theorem bytes_setAllocSize (m : MemoryPoolManager) (b size b' : Nat) :
    ((m.setAllocSize b size).blocks b').bytes = (m.blocks b').bytes := by
  by_cases h : b' = b
  · rw [h, setAllocSize, blocks_setBlock_self]
  · rw [setAllocSize, blocks_setBlock_of_ne _ _ h]

@[simp] theorem freed_setAllocSize (m : MemoryPoolManager) (b size b' : Nat) :
    ((m.setAllocSize b size).blocks b').freed = (m.blocks b').freed := by
  by_cases h : b' = b
  · rw [h, setAllocSize, blocks_setBlock_self]
  · rw [setAllocSize, blocks_setBlock_of_ne _ _ h]

@[simp] theorem bytes_free (m : MemoryPoolManager) (b b' : Nat) :
    ((m.free b).blocks b').bytes = (m.blocks b').bytes := by
  by_cases h : b' = b
  · rw [h, free, blocks_setBlock_self]
  · rw [free, blocks_setBlock_of_ne _ _ h]

@[simp] theorem freed_free_self (m : MemoryPoolManager) (b : Nat) :
    ((m.free b).blocks b).freed = true := by
  rw [free, blocks_setBlock_self]

theorem freed_free_of_ne (m : MemoryPoolManager) {b b' : Nat} (h : b' ≠ b) :
    ((m.free b).blocks b').freed = (m.blocks b').freed := by
  rw [free, blocks_setBlock_of_ne _ _ h]

@[simp] theorem blocks_malloc_self (m : MemoryPoolManager) (size : Nat) :
    (m.malloc size).1.blocks m.nextBlock =
      ⟨(size + sizeofMemoryHeader) % 2 ^ 64, 0, false⟩ := Function.update_self ..

theorem blocks_malloc_of_ne (m : MemoryPoolManager) (size : Nat) {b : Nat} (h : b ≠ m.nextBlock) :
    (m.malloc size).1.blocks b = m.blocks b := Function.update_of_ne h ..

/-- `MemoryPool::Pop()` of the pool `key` -/
def pop (m : MemoryPoolManager) (key : Nat) : MemoryPoolManager × Nat :=
  match (m.queue key).getLast? with
  | none => m.malloc key
  | some b => (m.setQueue key (m.queue key).dropLast, b)

/-- `_queue.push_back(ptr)` in the pool `key` -/
def pushBack (m : MemoryPoolManager) (key b : Nat) : MemoryPoolManager :=
  m.setQueue key (m.queue key ++ [b])

/-- The header that `Allocate(size)` gets: from the pool of the lower bound, or from `malloc`. -/
def header (m : MemoryPoolManager) (size : Nat) : MemoryPoolManager × Nat :=
  match lowerBound size with
  | none => m.malloc size
  | some key => m.pop key

/-- `Allocate(size)`: the manager afterwards and the block -/
def allocate (m : MemoryPoolManager) (size : Nat) : MemoryPoolManager × Nat :=
  let (m, b) := m.header size
  (m.setAllocSize b size, b)

/-- `Release(ptr)` of the block `b`; `MemoryPool::Push` clears the size in the header. -/
def release (m : MemoryPoolManager) (b : Nat) : MemoryPoolManager :=
  match findPool (m.blocks b).allocSize with
  | none => m.free b
  | some key => (m.setAllocSize b 0).pushBack key b

end MemoryPoolManager

/-! ## 2. The threads -/

/-- The next action of a thread in `Allocate` or `Release`. -/
inductive PoolPc where
  | idle
  /-- `Allocate(size)`: the header from the pool, or from `malloc` -/
  | header (size : Nat)
  /-- `MemoryHeader::AttachHeader(header, size)`, and the return -/
  | attach (b size : Nat)
  /-- `Release(ptr)`: `header->allocSize`, and the lookup -/
  | find (b : Nat)
  /-- `MemoryPool::Push`: `ptr->allocSize = 0;` -/
  | clear (key b : Nat)
  /-- `_queue.push_back(ptr);` -/
  | pushBack (key b : Nat)
  /-- `free(header);` -/
  | free (b : Nat)
  deriving DecidableEq, Repr

/-- The block that a thread works on. -/
def PoolPc.block? : PoolPc → Option Nat
  | .idle | .header _ => none
  | .attach b _ | .find b | .clear _ b | .pushBack _ b | .free b => some b

/-- After the lookup: without a pool the block is freed, else it is pushed there. -/
def PoolPc.found (b : Nat) : Option Nat → PoolPc
  | none => .free b
  | some key => .clear key b

/-- The manager, the blocks that `Allocate` has returned and that are not given to `Release` yet,
    and the threads. -/
structure PoolState where
  manager : MemoryPoolManager
  allocated : List Nat
  pc : Nat → PoolPc

/-- What can happen next. -/
inductive PoolLabel where
  /-- the idle thread `t` calls `Allocate(size)`, of a `uint32` -/
  | allocate (t size : Nat)
  /-- the idle thread `t` calls `Release` of a block that is allocated -/
  | release (t b : Nat)
  /-- thread `t` takes its next action -/
  | run (t : Nat)
  deriving DecidableEq, Repr

namespace PoolState

/-- Nothing allocated. -/
def fresh : PoolState := ⟨.new, [], fun _ => .idle⟩

/-- Thread `t` moves to `p`, with the manager `m` and the allocated blocks `bs`. -/
def goto (s : PoolState) (t : Nat) (p : PoolPc) (m : MemoryPoolManager) (bs : List Nat) :
    PoolState :=
  ⟨m, bs, Function.update s.pc t p⟩

/-- **The next action of thread `t`**; `none`: it is in neither function. -/
def runStep (s : PoolState) (t : Nat) : Option PoolState :=
  match s.pc t with
  | .idle => none
  | .header size =>
      let (m, b) := s.manager.header size
      some (s.goto t (.attach b size) m s.allocated)
  | .attach b size => some (s.goto t .idle (s.manager.setAllocSize b size) (b :: s.allocated))
  | .find b =>
      some (s.goto t (.found b (findPool (s.manager.blocks b).allocSize)) s.manager s.allocated)
  | .clear key b => some (s.goto t (.pushBack key b) (s.manager.setAllocSize b 0) s.allocated)
  | .pushBack key b => some (s.goto t .idle (s.manager.pushBack key b) s.allocated)
  | .free b => some (s.goto t .idle (s.manager.free b) s.allocated)

/-- **The step function of the pool machine.** -/
def next (s : PoolState) : PoolLabel → Option PoolState
  | .allocate t size =>
      if s.pc t = .idle ∧ size < 2 ^ 32 then some (s.goto t (.header size) s.manager s.allocated)
      else none
  | .release t b =>
      if s.pc t = .idle ∧ b ∈ s.allocated then
        some (s.goto t (.find b) s.manager (s.allocated.erase b))
      else none
  | .run t => s.runStep t

end PoolState

/-! ## 3. The two lookups -/

theorem lowerBound_eq_some {size key : Nat} (h : lowerBound size = some key) :
    key ∈ poolSizes ∧ size ≤ key :=
  ⟨List.mem_of_find?_eq_some h,
    of_decide_eq_true (List.find?_some (p := fun key => decide (size ≤ key)) h)⟩

theorem findPool_eq_some {size key : Nat} (h : findPool size = some key) :
    key ∈ poolSizes ∧ key = size :=
  ⟨List.mem_of_find?_eq_some h, eq_of_beq (List.find?_some (p := fun key => key == size) h)⟩

/-- **The lower bound of the size of a pool** is that size. -/
theorem lowerBound_of_mem : ∀ key ∈ poolSizes, lowerBound key = some key := by decide

theorem le_of_mem_poolSizes : ∀ key ∈ poolSizes, key ≤ SendBufferChunk.chunkSize := by decide

/-- The bytes of the data of a block that `Allocate(size)` returns. -/
def capacity (size : Nat) : Nat := (lowerBound size).getD size

theorem le_capacity (size : Nat) : size ≤ capacity size := by
  unfold capacity
  cases h : lowerBound size with
  | none => exact Nat.le_refl _
  | some key => exact (lowerBound_eq_some h).2

theorem capacity_of_mem {key : Nat} (h : key ∈ poolSizes) : capacity key = key := by
  unfold capacity
  rw [lowerBound_of_mem key h]
  rfl

/-- A `uint32` and the header do not wrap. -/
theorem malloc_bytes {size : Nat} (h : size < 2 ^ 32) :
    (size + sizeofMemoryHeader) % 2 ^ 64 = size + sizeofMemoryHeader :=
  Nat.mod_eq_of_lt (by unfold sizeofMemoryHeader; omega)

theorem lt_of_mem_poolSizes {key : Nat} (h : key ∈ poolSizes) : key < 2 ^ 32 :=
  Nat.lt_of_le_of_lt (le_of_mem_poolSizes key h) (by decide)

/-! ## 4. The place of a block -/

/-- Where a block can be. -/
inductive Place where
  /-- not allocated yet -/
  | unborn
  /-- in the queue of the pool `key` -/
  | queued (key : Nat)
  /-- with a caller -/
  | allocated
  /-- with thread `t`, inside `Allocate` or `Release` -/
  | thread (t : Nat)
  | freed
  deriving DecidableEq, Repr

namespace PoolState

/-- The block `b` is at a place. -/
def At (s : PoolState) (b : Nat) : Place → Prop
  | .unborn => s.manager.nextBlock ≤ b
  | .queued key => b ∈ s.manager.queue key
  | .allocated => b ∈ s.allocated
  | .thread t => (s.pc t).block? = some b
  | .freed => (s.manager.blocks b).freed = true

/-- What the thread that works on a block relies on. -/
def Knows (m : MemoryPoolManager) : PoolPc → Prop
  | .idle | .header _ | .free _ => True
  | .attach b size => (m.blocks b).bytes = capacity size + sizeofMemoryHeader
  | .find b => (m.blocks b).bytes = capacity (m.blocks b).allocSize + sizeofMemoryHeader
  | .clear key b | .pushBack key b =>
      key ∈ poolSizes ∧ (m.blocks b).bytes = key + sizeofMemoryHeader

/-- The block `b` is as large as the place needs: a queue holds blocks of its own size, and a
    caller has the room that the header says. -/
def Sized (s : PoolState) (b : Nat) : Place → Prop
  | .unborn | .freed => True
  | .queued key => key ∈ poolSizes ∧ (s.manager.blocks b).bytes = key + sizeofMemoryHeader
  | .allocated => (s.manager.blocks b).bytes =
      capacity (s.manager.blocks b).allocSize + sizeofMemoryHeader
  | .thread t => Knows s.manager (s.pc t)

/-- **The invariant of the pool machine.** -/
structure PoolInv (s : PoolState) : Prop where
  place : ∀ b, ∃ x, ∀ y, s.At b y ↔ y = x
  nodupQueue : ∀ key, (s.manager.queue key).Nodup
  nodupAllocated : s.allocated.Nodup
  asked : ∀ t size, s.pc t = .header size → size < 2 ^ 32
  sized : ∀ b y, s.At b y → s.Sized b y

theorem poolInv_fresh : fresh.PoolInv where
  place := fun b => ⟨.unborn, fun y => by
    cases y <;> simp [At, fresh, MemoryPoolManager.new, PoolPc.block?]⟩
  nodupQueue := fun _ => List.nodup_nil
  nodupAllocated := List.nodup_nil
  asked := fun _ _ h => nomatch h
  sized := fun b y h => by
    cases y with
    | unborn => trivial
    | queued key => exact absurd h List.not_mem_nil
    | allocated => exact absurd h List.not_mem_nil
    | thread t => nomatch h
    | freed => trivial

section Step

variable {s : PoolState} {t b : Nat} {p : PoolPc} {m : MemoryPoolManager} {bs : List Nat}

theorem goto_pc_self : (s.goto t p m bs).pc t = p := Function.update_self ..

theorem goto_pc_of_ne {u : Nat} (hu : u ≠ t) : (s.goto t p m bs).pc u = s.pc u :=
  Function.update_of_ne hu ..

/-- A block is at no other place. -/
theorem PoolInv.only (hI : s.PoolInv) {x : Place} (h : s.At b x) : ∀ y, s.At b y ↔ y = x := by
  obtain ⟨x', hx'⟩ := hI.place b
  obtain rfl := (hx' x).mp h
  exact hx'

/-- A block that is somewhere is not elsewhere. -/
theorem PoolInv.not_at (hI : s.PoolInv) {x : Place} (h : s.At b x) (y : Place) (hy : y ≠ x) :
    ¬ s.At b y := fun h' => hy ((hI.only h y).mp h')

/-- A thread has the block it works on, ... -/
theorem at_thread (hpc : s.pc t = p) (hp : p.block? = some b) : s.At b (.thread t) := by
  rw [At, hpc]
  exact hp

/-- ... and knows what it relies on. -/
theorem PoolInv.knows (hI : s.PoolInv) (hpc : s.pc t = p) (hp : p.block? = some b) :
    Knows s.manager p := by
  have hknows := hI.sized b _ (at_thread hpc hp)
  rwa [Sized, hpc] at hknows

/-- A thread that works on `b`, or did, works on no other block. -/
theorem block_goto (hp : p.block? = none ∨ p.block? = some b)
    (hold : (s.pc t).block? = none ∨ (s.pc t).block? = some b)
    (hother : ∀ u, u ≠ t → (s.pc u).block? ≠ some b) (u b' : Nat) :
    ((s.goto t p m bs).pc u).block? = some b' ↔
      if b' = b then u = t ∧ p.block? = some b else (s.pc u).block? = some b' := by
  by_cases hu : u = t
  · rw [hu, goto_pc_self]
    by_cases hb : b' = b
    · rw [if_pos hb, hb]
      exact (and_iff_right rfl).symm
    · rw [if_neg hb]
      obtain hp | hp := hp <;> obtain hold | hold := hold <;> simp [hp, hold, Ne.symm hb]
  · rw [goto_pc_of_ne hu]
    by_cases hb : b' = b
    · rw [if_pos hb, hb]
      exact iff_of_false (hother u hu) fun h => hu h.1
    · rw [if_neg hb]

/-- What a thread relies on is the block it works on. -/
theorem knows_congr {m₀ : MemoryPoolManager} (hb : p.block? = some b)
    (h : m.blocks b = m₀.blocks b) (hk : Knows m₀ p) : Knows m p := by
  cases p with
  | idle | header size | free b' => trivial
  | attach b' size | find b' | clear key b' | pushBack key b' =>
      obtain rfl := Option.some.inj hb
      simp only [Knows] at hk ⊢
      rwa [h]

/-- No other thread works on a block that `t` works on, or that is nobody's. -/
theorem PoolInv.not_other (hI : s.PoolInv) {x : Place} (h : s.At b x)
    (hx : ∀ u, u ≠ t → x ≠ .thread u) : ∀ u, u ≠ t → (s.pc u).block? ≠ some b :=
  fun u hu hb => hx u hu ((hI.only h (.thread u)).mp hb).symm

/-- **A step of `t` that moves the block `b` to `x`**: what it leaves of the other blocks, where it
    puts `b`, and that `b` is large enough there. -/
theorem PoolInv.move (hI : s.PoolInv) {x : Place} (hheader : ∀ size, p ≠ .header size)
    (hold : (s.pc t).block? = none ∨ (s.pc t).block? = some b)
    (hother : ∀ u, u ≠ t → (s.pc u).block? ≠ some b)
    (hnext : ∀ b', b' ≠ b → (m.nextBlock ≤ b' ↔ s.manager.nextBlock ≤ b'))
    (hqueue : ∀ b', b' ≠ b → ∀ key, b' ∈ m.queue key ↔ b' ∈ s.manager.queue key)
    (hcallers : ∀ b', b' ≠ b → (b' ∈ bs ↔ b' ∈ s.allocated))
    (hblocks : ∀ b', b' ≠ b → m.blocks b' = s.manager.blocks b')
    (hthread : p.block? = some b ∧ x = .thread t ∨ p.block? = none ∧ ∀ u, x ≠ .thread u)
    (hself : ∀ y, (∀ u, y ≠ .thread u) → ((s.goto t p m bs).At b y ↔ y = x))
    (hnodup : ∀ key, (m.queue key).Nodup) (hallocated : bs.Nodup)
    (hsized : (s.goto t p m bs).Sized b x) : (s.goto t p m bs).PoolInv := by
  have hp : p.block? = none ∨ p.block? = some b := by
    rcases hthread with ⟨h, -⟩ | ⟨h, -⟩
    · exact .inr h
    · exact .inl h
  have hblock : ∀ u b', ((s.goto t p m bs).pc u).block? = some b' ↔
      if b' = b then u = t ∧ p.block? = some b else (s.pc u).block? = some b' :=
    block_goto hp hold hother
  have hmoved : ∀ y, (s.goto t p m bs).At b y ↔ y = x := by
    intro y
    cases y with
    | thread u =>
        refine (hblock u b).trans ?_
        rw [if_pos rfl]
        rcases hthread with ⟨hpb, rfl⟩ | ⟨hpb, hx⟩
        · simp [hpb]
        · exact iff_of_false (fun h => by rw [hpb] at h; nomatch h.2) fun h => hx u h.symm
    | unborn | queued key | allocated | freed => exact hself _ nofun
  have hrest : ∀ b', b' ≠ b → ∀ y, (s.goto t p m bs).At b' y ↔ s.At b' y := by
    intro b' hb y
    cases y with
    | unborn => exact hnext b' hb
    | queued key => exact hqueue b' hb key
    | allocated => exact hcallers b' hb
    | thread u =>
        refine (hblock u b').trans ?_
        rw [if_neg hb]
        exact Iff.rfl
    | freed =>
        unfold At
        rw [show (s.goto t p m bs).manager.blocks b' = _ from hblocks b' hb]
  refine ⟨fun b' => ?_, hnodup, hallocated, fun u size h => ?_, fun b' y h => ?_⟩
  · by_cases hb : b' = b
    · exact ⟨x, hb ▸ hmoved⟩
    · obtain ⟨x', hx'⟩ := hI.place b'
      exact ⟨x', fun y => (hrest b' hb y).trans (hx' y)⟩
  · by_cases hu : u = t
    · rw [hu, goto_pc_self] at h
      exact absurd h (hheader size)
    · rw [goto_pc_of_ne hu] at h
      exact hI.asked u size h
  · by_cases hb : b' = b
    · rw [hb] at h ⊢
      rwa [(hmoved y).mp h]
    · have hbefore := (hrest b' hb y).mp h
      have hwas := hI.sized b' y hbefore
      have hsame : (s.goto t p m bs).manager.blocks b' = s.manager.blocks b' := hblocks b' hb
      cases y with
      | unborn | freed => trivial
      | queued key => exact ⟨hwas.1, hsame ▸ hwas.2⟩
      | allocated =>
          simp only [Sized] at hwas ⊢
          rwa [hsame]
      | thread u =>
          have hu : u ≠ t := by
            rintro rfl
            rw [At, hblock u b', if_neg hb] at h
            rcases hold with hold | hold
            · rw [hold] at h
              nomatch h
            · exact hb (Option.some.inj (h.symm.trans hold))
          simp only [Sized] at hwas ⊢
          rw [goto_pc_of_ne hu]
          exact knows_congr hbefore (hblocks b' hb) hwas

/-! ## 5. The steps -/

/-- `malloc` in `Allocate`. -/
theorem PoolInv.malloc_step (hI : s.PoolInv) {size n : Nat} (hpc : s.pc t = .header size)
    (hn : n < 2 ^ 32) (hcapacity : capacity size = n) :
    (s.goto t (.attach (s.manager.malloc n).2 size) (s.manager.malloc n).1
      s.allocated).PoolInv := by
  have hat : s.At s.manager.nextBlock .unborn := Nat.le_refl _
  refine hI.move (x := .thread t) nofun (.inl (by rw [hpc]; rfl)) (hI.not_other hat nofun)
    (fun b' hb => ?_) (fun _ _ _ => Iff.rfl) (fun _ _ => Iff.rfl)
    (fun b' hb => s.manager.blocks_malloc_of_ne n hb) (.inl ⟨rfl, rfl⟩) (fun y hy => ?_)
    hI.nodupQueue hI.nodupAllocated ?_
  · have hb' : b' ≠ s.manager.nextBlock := hb
    show s.manager.nextBlock + 1 ≤ b' ↔ s.manager.nextBlock ≤ b'
    omega
  · refine iff_of_false ?_ (hy t)
    cases y with
    | unborn => exact Nat.not_succ_le_self _
    | queued key => exact hI.not_at hat (.queued key) nofun
    | allocated => exact hI.not_at hat .allocated nofun
    | thread u => exact absurd rfl (hy u)
    | freed =>
        intro h
        have hfreed : ((s.manager.malloc n).1.blocks s.manager.nextBlock).freed = true := h
        rw [MemoryPoolManager.blocks_malloc_self] at hfreed
        nomatch hfreed
  · simp only [Sized, goto_pc_self, Knows]
    show ((s.manager.malloc n).1.blocks s.manager.nextBlock).bytes = _
    rw [MemoryPoolManager.blocks_malloc_self, hcapacity, malloc_bytes hn]

/-- `Pop` of the last block of a queue, in `Allocate`. -/
theorem PoolInv.pop_step (hI : s.PoolInv) {size key : Nat} (hpc : s.pc t = .header size)
    (hkey : lowerBound size = some key) (hlast : (s.manager.queue key).getLast? = some b) :
    (s.goto t (.attach b size) (s.manager.setQueue key (s.manager.queue key).dropLast)
      s.allocated).PoolInv := by
  have hat : s.At b (.queued key) := List.mem_of_getLast? hlast
  have hsplit := List.dropLast_append_getLast? b hlast
  have hnodup := hI.nodupQueue key
  rw [← hsplit, List.nodup_append] at hnodup
  obtain ⟨hdrop, -, hdisjoint⟩ := hnodup
  refine hI.move (x := .thread t) nofun (.inl (by rw [hpc]; rfl)) (hI.not_other hat nofun)
    (fun _ _ => Iff.rfl) (fun b' hb key' => ?_) (fun _ _ => Iff.rfl) (fun _ _ => rfl)
    (.inl ⟨rfl, rfl⟩) (fun y hy => ?_) (fun key' => ?_) hI.nodupAllocated ?_
  · by_cases hk : key' = key
    · have hmem : b' ∈ s.manager.queue key ↔ b' ∈ (s.manager.queue key).dropLast := by
        rw [← hsplit, List.mem_append, List.mem_singleton, or_iff_left hb,
          List.dropLast_concat]
      rw [hk, hmem, MemoryPoolManager.queue_setQueue_self]
    · rw [MemoryPoolManager.queue_setQueue_of_ne _ _ hk]
  · refine iff_of_false ?_ (hy t)
    cases y with
    | unborn => exact hI.not_at hat .unborn nofun
    | queued key' =>
        intro h
        have hmem : b ∈ (s.manager.setQueue key (s.manager.queue key).dropLast).queue key' := h
        by_cases hk : key' = key
        · rw [hk, MemoryPoolManager.queue_setQueue_self] at hmem
          exact hdisjoint b hmem b (List.mem_singleton_self b) rfl
        · rw [MemoryPoolManager.queue_setQueue_of_ne _ _ hk] at hmem
          exact hI.not_at hat (.queued key') (fun e => hk (Place.queued.inj e)) hmem
    | allocated => exact hI.not_at hat .allocated nofun
    | thread u => exact absurd rfl (hy u)
    | freed => exact hI.not_at hat .freed nofun
  · by_cases hk : key' = key
    · rw [hk, MemoryPoolManager.queue_setQueue_self]
      exact hdrop
    · rw [MemoryPoolManager.queue_setQueue_of_ne _ _ hk]
      exact hI.nodupQueue key'
  · have hcapacity : capacity size = key := by
      unfold capacity
      rw [hkey]
      rfl
    simp only [Sized, goto_pc_self, Knows]
    rw [hcapacity]
    exact (hI.sized b _ hat).2

/-- `AttachHeader`, and the return of `Allocate`. -/
theorem PoolInv.attach_step (hI : s.PoolInv) {size : Nat} (hpc : s.pc t = .attach b size) :
    (s.goto t .idle (s.manager.setAllocSize b size) (b :: s.allocated)).PoolInv := by
  have hat : s.At b (.thread t) := at_thread hpc rfl
  have hblock : (s.manager.setAllocSize b size).blocks b =
      { s.manager.blocks b with allocSize := size } := MemoryPoolManager.blocks_setBlock_self ..
  have hfree : b ∉ s.allocated := hI.not_at hat .allocated nofun
  refine hI.move (x := .allocated) nofun (.inr hat)
    (hI.not_other hat fun u hu h => hu (Place.thread.inj h).symm)
    (fun _ _ => Iff.rfl) (fun _ _ _ => Iff.rfl)
    (fun b' hb => List.mem_cons.trans (or_iff_right hb)) (fun b' hb => Function.update_of_ne hb ..)
    (.inr ⟨rfl, nofun⟩) (fun y hy => ?_) hI.nodupQueue
    (List.nodup_cons.mpr ⟨hfree, hI.nodupAllocated⟩) ?_
  · cases y with
    | unborn => exact iff_of_false (hI.not_at hat .unborn nofun) nofun
    | queued key => exact iff_of_false (hI.not_at hat (.queued key) nofun) nofun
    | allocated => exact iff_of_true (List.mem_cons_self ..) rfl
    | thread u => exact absurd rfl (hy u)
    | freed =>
        refine iff_of_false (fun h => ?_) nofun
        have hfreed : ((s.manager.setAllocSize b size).blocks b).freed = true := h
        rw [hblock] at hfreed
        exact hI.not_at hat .freed nofun hfreed
  · have hknows := hI.knows hpc rfl
    show ((s.manager.setAllocSize b size).blocks b).bytes =
      capacity ((s.manager.setAllocSize b size).blocks b).allocSize + sizeofMemoryHeader
    rw [hblock]
    exact hknows

/-- A step of `t` that only writes the size in the header of its block, or not even that. -/
theorem PoolInv.stay_step (hI : s.PoolInv) (hat : s.At b (.thread t)) (hp : p.block? = some b)
    (hheader : ∀ size, p ≠ .header size) {block : MemoryBlock}
    (hfreed : block.freed = (s.manager.blocks b).freed)
    (hknows : Knows (s.manager.setBlock b block) p) :
    (s.goto t p (s.manager.setBlock b block) s.allocated).PoolInv := by
  refine hI.move (x := .thread t) hheader (.inr hat)
    (hI.not_other hat fun u hu h => hu (Place.thread.inj h).symm) (fun _ _ => Iff.rfl)
    (fun _ _ _ => Iff.rfl) (fun _ _ => Iff.rfl)
    (fun b' hb => MemoryPoolManager.blocks_setBlock_of_ne _ _ hb) (.inl ⟨hp, rfl⟩)
    (fun y hy => ?_) hI.nodupQueue hI.nodupAllocated ?_
  · refine Iff.trans ?_ (hI.only hat y)
    cases y with
    | unborn | queued key | allocated => exact Iff.rfl
    | thread u => exact absurd rfl (hy u)
    | freed =>
        show ((s.manager.setBlock b block).blocks b).freed = true ↔ _
        rw [MemoryPoolManager.blocks_setBlock_self, hfreed]
        exact Iff.rfl
  · simp only [Sized, goto_pc_self]
    exact hknows

/-- The same where nothing is written at all. -/
theorem PoolInv.pc_step (hI : s.PoolInv) (hat : s.At b (.thread t)) (hp : p.block? = some b)
    (hheader : ∀ size, p ≠ .header size) (hknows : Knows s.manager p) :
    (s.goto t p s.manager s.allocated).PoolInv := by
  have hsame : s.manager.setBlock b (s.manager.blocks b) = s.manager := by
    unfold MemoryPoolManager.setBlock
    rw [Function.update_eq_self]
  have h : (s.goto t p (s.manager.setBlock b (s.manager.blocks b)) s.allocated).PoolInv :=
    hI.stay_step hat hp hheader rfl (by rwa [hsame])
  rwa [hsame] at h

/-- `push_back`, and the return of `Release`. -/
theorem PoolInv.pushBack_step (hI : s.PoolInv) {key : Nat} (hpc : s.pc t = .pushBack key b) :
    (s.goto t .idle (s.manager.pushBack key b) s.allocated).PoolInv := by
  have hat : s.At b (.thread t) := at_thread hpc rfl
  have hout : ∀ key', b ∉ s.manager.queue key' := fun key' => hI.not_at hat (.queued key') nofun
  refine hI.move (x := .queued key) nofun (.inr hat)
    (hI.not_other hat fun u hu h => hu (Place.thread.inj h).symm) (fun _ _ => Iff.rfl)
    (fun b' hb key' => ?_) (fun _ _ => Iff.rfl) (fun _ _ => rfl) (.inr ⟨rfl, nofun⟩)
    (fun y hy => ?_) (fun key' => ?_) hI.nodupAllocated (hI.knows hpc rfl)
  · by_cases hk : key' = key
    · rw [hk, MemoryPoolManager.pushBack, MemoryPoolManager.queue_setQueue_self, List.mem_append,
        List.mem_singleton, or_iff_left hb]
    · rw [MemoryPoolManager.pushBack, MemoryPoolManager.queue_setQueue_of_ne _ _ hk]
  · cases y with
    | unborn => exact iff_of_false (hI.not_at hat .unborn nofun) nofun
    | queued key' =>
        show b ∈ (s.manager.pushBack key b).queue key' ↔ _
        by_cases hk : key' = key
        · rw [hk, MemoryPoolManager.pushBack, MemoryPoolManager.queue_setQueue_self]
          exact iff_of_true (List.mem_append_right _ (List.mem_singleton_self b)) rfl
        · rw [MemoryPoolManager.pushBack, MemoryPoolManager.queue_setQueue_of_ne _ _ hk]
          exact iff_of_false (hout key') fun h => hk (Place.queued.inj h)
    | allocated => exact iff_of_false (hI.not_at hat .allocated nofun) nofun
    | thread u => exact absurd rfl (hy u)
    | freed => exact iff_of_false (hI.not_at hat .freed nofun) nofun
  · by_cases hk : key' = key
    · rw [hk, MemoryPoolManager.pushBack, MemoryPoolManager.queue_setQueue_self,
        List.nodup_append]
      refine ⟨hI.nodupQueue key, List.pairwise_singleton _ b, fun c hc c' hc' e => ?_⟩
      rw [List.mem_singleton.mp hc'] at e
      exact hout key (e ▸ hc)
    · rw [MemoryPoolManager.pushBack, MemoryPoolManager.queue_setQueue_of_ne _ _ hk]
      exact hI.nodupQueue key'

/-- `free`, and the return of `Release`. -/
theorem PoolInv.free_step (hI : s.PoolInv) (hpc : s.pc t = .free b) :
    (s.goto t .idle (s.manager.free b) s.allocated).PoolInv := by
  have hat : s.At b (.thread t) := at_thread hpc rfl
  refine hI.move (x := .freed) nofun (.inr hat)
    (hI.not_other hat fun u hu h => hu (Place.thread.inj h).symm) (fun _ _ => Iff.rfl)
    (fun _ _ _ => Iff.rfl) (fun _ _ => Iff.rfl)
    (fun b' hb => MemoryPoolManager.blocks_setBlock_of_ne _ _ hb) (.inr ⟨rfl, nofun⟩)
    (fun y hy => ?_) hI.nodupQueue hI.nodupAllocated trivial
  cases y with
  | unborn => exact iff_of_false (hI.not_at hat .unborn nofun) nofun
  | queued key => exact iff_of_false (hI.not_at hat (.queued key) nofun) nofun
  | allocated => exact iff_of_false (hI.not_at hat .allocated nofun) nofun
  | thread u => exact absurd rfl (hy u)
  | freed => exact iff_of_true (s.manager.freed_free_self b) rfl

/-- The call of `Release`. -/
theorem PoolInv.release_call (hI : s.PoolInv) (hpc : s.pc t = .idle) (hb : b ∈ s.allocated) :
    (s.goto t (.find b) s.manager (s.allocated.erase b)).PoolInv := by
  have hat : s.At b .allocated := hb
  have hnot : b ∉ s.allocated.erase b := hI.nodupAllocated.not_mem_erase
  refine hI.move (x := .thread t) nofun (.inl (by rw [hpc]; rfl)) (hI.not_other hat nofun)
    (fun _ _ => Iff.rfl) (fun _ _ _ => Iff.rfl)
    (fun b' hne => List.mem_erase_of_ne hne) (fun _ _ => rfl) (.inl ⟨rfl, rfl⟩)
    (fun y hy => ?_) hI.nodupQueue (hI.nodupAllocated.erase b) ?_
  · refine iff_of_false ?_ (hy t)
    cases y with
    | unborn => exact hI.not_at hat .unborn nofun
    | queued key => exact hI.not_at hat (.queued key) nofun
    | allocated => exact hnot
    | thread u => exact absurd rfl (hy u)
    | freed => exact hI.not_at hat .freed nofun
  · have hwas := hI.sized b .allocated hb
    simp only [Sized, goto_pc_self, Knows] at hwas ⊢
    exact hwas

/-- The call of `Allocate`: no block moves. -/
theorem PoolInv.allocate_call (hI : s.PoolInv) {size : Nat} (hpc : s.pc t = .idle)
    (hsize : size < 2 ^ 32) : (s.goto t (.header size) s.manager s.allocated).PoolInv := by
  have hat : ∀ b y, (s.goto t (.header size) s.manager s.allocated).At b y ↔ s.At b y := by
    intro b y
    cases y with
    | thread u =>
        show ((s.goto t (.header size) s.manager s.allocated).pc u).block? = some b ↔
          (s.pc u).block? = some b
        by_cases hu : u = t
        · rw [hu, goto_pc_self, hpc]
          exact Iff.rfl
        · rw [goto_pc_of_ne hu]
    | unborn | queued key | allocated | freed => exact Iff.rfl
  refine ⟨fun b => ?_, hI.nodupQueue, hI.nodupAllocated, fun u n h => ?_, fun b y h => ?_⟩
  · obtain ⟨x, hx⟩ := hI.place b
    exact ⟨x, fun y => (hat b y).trans (hx y)⟩
  · by_cases hu : u = t
    · rw [hu, goto_pc_self] at h
      rwa [← PoolPc.header.inj h]
    · rw [goto_pc_of_ne hu] at h
      exact hI.asked u n h
  · have hwas := hI.sized b y ((hat b y).mp h)
    cases y with
    | thread u =>
        by_cases hu : u = t
        · simp only [Sized]
          rw [hu, goto_pc_self]
          trivial
        · simp only [Sized] at hwas ⊢
          rwa [goto_pc_of_ne hu]
    | unborn | queued key | allocated | freed => exact hwas

/-- **Every action inside `Allocate` and `Release` keeps the invariant.** -/
theorem PoolInv.runStep (hI : s.PoolInv) {s' : PoolState} (h : s.runStep t = some s') :
    s'.PoolInv := by
  unfold PoolState.runStep at h
  cases hpc : s.pc t with
  | idle =>
      rw [hpc] at h
      nomatch h
  | header size =>
      have hsize := hI.asked t size hpc
      rw [hpc] at h
      obtain rfl := Option.some.inj h
      cases hkey : lowerBound size with
      | none => exact hI.malloc_step hpc hsize (by unfold capacity; rw [hkey]; rfl)
      | some key =>
          dsimp only [MemoryPoolManager.pop]
          cases hlast : (s.manager.queue key).getLast? with
          | none =>
              refine hI.malloc_step hpc ?_ (by unfold capacity; rw [hkey]; rfl)
              exact lt_of_mem_poolSizes (lowerBound_eq_some hkey).1
          | some b => exact hI.pop_step hpc hkey hlast
  | attach b size =>
      rw [hpc] at h
      obtain rfl := Option.some.inj h
      exact hI.attach_step hpc
  | find b =>
      have hat : s.At b (.thread t) := at_thread hpc rfl
      have hknows := hI.knows hpc rfl
      simp only [Knows] at hknows
      rw [hpc] at h
      obtain rfl := Option.some.inj h
      cases hkey : findPool (s.manager.blocks b).allocSize with
      | none => exact hI.pc_step hat rfl nofun trivial
      | some key =>
          obtain ⟨hmem, rfl⟩ := findPool_eq_some hkey
          rw [capacity_of_mem hmem] at hknows
          exact hI.pc_step hat rfl nofun ⟨hmem, hknows⟩
  | clear key b =>
      have hat : s.At b (.thread t) := at_thread hpc rfl
      have hknows := hI.knows hpc rfl
      rw [hpc] at h
      obtain rfl := Option.some.inj h
      refine hI.stay_step (p := .pushBack key b) hat rfl nofun rfl ⟨hknows.1, ?_⟩
      rw [MemoryPoolManager.blocks_setBlock_self]
      exact hknows.2
  | pushBack key b =>
      rw [hpc] at h
      obtain rfl := Option.some.inj h
      exact hI.pushBack_step hpc
  | free b =>
      rw [hpc] at h
      obtain rfl := Option.some.inj h
      exact hI.free_step hpc

/-- **Every step keeps the invariant.** -/
theorem PoolInv.step (hI : s.PoolInv) {l : PoolLabel} {s' : PoolState} (h : s.next l = some s') :
    s'.PoolInv := by
  cases l with
  | allocate t size =>
      simp only [next] at h
      split at h
      · rename_i hcall
        obtain rfl := Option.some.inj h
        exact hI.allocate_call hcall.1 hcall.2
      · nomatch h
  | release t b =>
      simp only [next] at h
      split at h
      · rename_i hcall
        obtain rfl := Option.some.inj h
        exact hI.release_call hcall.1 hcall.2
      · nomatch h
  | run t => exact hI.runStep h

end Step

/-! ## 6. The safety of the pools -/

/-- A block is held: by a caller, or by a thread inside `Allocate` or `Release`. -/
def Held (s : PoolState) (b : Nat) : Prop :=
  b ∈ s.allocated ∨ ∃ t, (s.pc t).block? = some b

/-- **The law of the pools** in one state. -/
structure PoolLaw (s : PoolState) : Prop where
  /-- the block that `Allocate(size)` is about to return has room for `size` bytes -/
  returned : ∀ t b size, s.pc t = .attach b size →
    size + sizeofMemoryHeader ≤ (s.manager.blocks b).bytes
  /-- and a caller's block for the bytes that were asked for -/
  room : ∀ b ∈ s.allocated,
    (s.manager.blocks b).allocSize + sizeofMemoryHeader ≤ (s.manager.blocks b).bytes
  /-- no block was returned twice -/
  callers : s.allocated.Nodup
  /-- no block is with a caller and with a thread, or with two threads -/
  threads : ∀ t b, (s.pc t).block? = some b →
    b ∉ s.allocated ∧ ∀ u, (s.pc u).block? = some b → u = t
  /-- no block is held and in a queue, or in two queues, or twice in one -/
  queues : ∀ key, (s.manager.queue key).Nodup ∧ ∀ b ∈ s.manager.queue key,
    ¬ s.Held b ∧ ∀ key', b ∈ s.manager.queue key' → key' = key
  /-- a queue holds blocks that were allocated with the size of its pool -/
  sizes : ∀ key, ∀ b ∈ s.manager.queue key, key ∈ poolSizes ∧
    (s.manager.blocks b).bytes = key + sizeofMemoryHeader
  /-- a freed block is neither held nor in a queue -/
  freed : ∀ b, (s.manager.blocks b).freed = true → ¬ s.Held b ∧ ∀ key, b ∉ s.manager.queue key

/-- A held block is in no queue and not freed. -/
theorem PoolInv.not_held {s : PoolState} (hI : s.PoolInv) {b : Nat} {x : Place} (h : s.At b x)
    (hallocated : x ≠ .allocated) (hthread : ∀ t, x ≠ .thread t) : ¬ s.Held b := by
  rintro (hb | ⟨t, hb⟩)
  · exact hallocated ((hI.only h .allocated).mp hb).symm
  · exact hthread t ((hI.only h (.thread t)).mp hb).symm

theorem PoolInv.law {s : PoolState} (hI : s.PoolInv) : s.PoolLaw where
  returned := fun t b size hpc => by
    rw [show (s.manager.blocks b).bytes = _ from hI.knows hpc rfl]
    exact Nat.add_le_add_right (le_capacity size) _
  room := fun b hb => by
    have hwas := hI.sized b .allocated hb
    simp only [Sized] at hwas
    rw [hwas]
    exact Nat.add_le_add_right (le_capacity _) _
  callers := hI.nodupAllocated
  threads := fun t b hb => by
    have hat : s.At b (.thread t) := hb
    exact ⟨hI.not_at hat .allocated nofun,
      fun u hu => Place.thread.inj ((hI.only hat (.thread u)).mp hu)⟩
  queues := fun key => ⟨hI.nodupQueue key, fun b hb =>
    ⟨hI.not_held (x := .queued key) hb nofun nofun,
      fun key' h => Place.queued.inj ((hI.only (x := .queued key) hb (.queued key')).mp h)⟩⟩
  sizes := fun key b hb => hI.sized b (.queued key) hb
  freed := fun b hb => ⟨hI.not_held (x := .freed) hb nofun nofun,
    fun key h => nomatch (hI.only (x := .freed) hb (.queued key)).mp h⟩

/-- **The pools are safe**: on every run of any number of threads that allocate any sizes and
    release only what is allocated, in any interleaving. -/
theorem pool_safety : ∀ s, Reach next always fresh s → s.PoolLaw := by
  intro s hr
  have hI : s.PoolInv := hr.invariant poolInv_fresh fun _ _ _ hI _ h => hI.step h
  exact hI.law

/-- Two threads allocate 33 and 64 bytes; the second block is released while the first thread is in
    `Allocate` again, and then handed out for 40 bytes. -/
theorem pool_safety_reuse :
    ∃ s, exec next always fresh [.allocate 0 33, .allocate 1 64, .run 1, .run 0, .run 1, .run 0,
        .release 1 0, .allocate 0 40, .run 1, .run 1, .run 1, .run 0] = some s ∧
      s.allocated = [1] ∧ s.pc 0 = .attach 0 40 ∧ s.PoolLaw := by
  have h := pool_safety _ (.of_exec [.allocate 0 33, .allocate 1 64, .run 1, .run 0, .run 1, .run 0,
    .release 1 0, .allocate 0 40, .run 1, .run 1, .run 1, .run 0] rfl)
  exact ⟨_, rfl, rfl, rfl, h⟩

end PoolState

end ServerCore
