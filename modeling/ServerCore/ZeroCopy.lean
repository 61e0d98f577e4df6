/-
  File:      ServerCore/ZeroCopy.lean
  Subject:   The SendBufferRefs in the send paths of the sessions, and the memory they stand for.

  `Session::Send` queues a reference and copies no byte: a write reads the memory of its SendBuffers
  when it transmits. `ZeroCopy` puts together the SendBuffers of the program, with the threads that
  open, write, close and release them, and `n` sessions with the send machine of each; to each
  session belong the references it holds (`SendRefs`): the parameter of every thread inside `Send`,
  `_sendQueue`, `pendingBuffers` of the thread inside `RegisterSend`, and its copies in the handlers
  of the writes. A SendBuffer is destroyed at any time, but not while one of these refers to it.
  The same SendBuffer may be sent on any number of sessions, as `Broadcast` does.

  The send machines have the bytes that a SendBuffer had when `Send` was called. The memory may have
  been changed since, and the SendBuffer destroyed:

  * `SideInv`: what a session refers to is alive, and its memory has those bytes.
  * `zero_copy`: so what a session transmits is what it was called with, and no write reads the
    memory of a SendBuffer that was destroyed; for each session its send machine describes the
    bytes that are read from the memory.
-/
import Mathlib.Data.List.InsertIdx
import ServerCore.PacketLink
import ServerCore.SendBufferInv

namespace ServerCore

open Trans

/-! ## 1. References -/

namespace SendBufferState

/-- The bytes of the SendBuffer `b`. -/
def bytesAt (s : SendBufferState) (b : Nat) : SendBytes := ((s.buffers b).map s.bytes).getD []

/-- The SendBuffer `b` is closed, and not destroyed. -/
def Live (s : SendBufferState) (b : Nat) : Prop :=
  (∃ B ∈ s.buffers b, B.closed = true) ∧ b ∉ s.released

instance (s : SendBufferState) (b : Nat) : Decidable (s.Live b) :=
  inferInstanceAs (Decidable (_ ∧ _))

/-- `Open` destroys no SendBuffer. -/
theorem openStep_released {s s' : SendBufferState} (hI : s.SendBufferInv) {t : Nat}
    (h : s.openStep t = some s') : s'.released = s.released := by
  unfold openStep at h
  split at h
  · cases h
  · cases h
  · split at h <;> · cases h; rfl
  · rw [pop_eq hI.chunks] at h
    cases h
    rfl
  · obtain ⟨ch, -, rfl⟩ := Option.map_eq_some_iff.mp h
    rfl
  · obtain ⟨ch, -, rfl⟩ := Option.map_eq_some_iff.mp h
    rfl
  · obtain ⟨ch, hch, rfl⟩ := Option.map_eq_some_iff.mp h
    rw [push_eq hch]
    rfl
  · obtain ⟨ch, -, rfl⟩ := Option.map_eq_some_iff.mp h
    split <;> rfl

/-- **A SendBuffer is destroyed by its release only.** -/
theorem released_step {s s' : SendBufferState} (hI : s.SendBufferInv) {l : SendBufferLabel}
    (h : s.next l = some s') :
    s'.released = s.released ∨ ∃ b, l = .release b ∧ s'.released = b :: s.released := by
  cases l with
  | run t => exact .inl (openStep_released hI h)
  | call t size =>
      simp only [next] at h
      split at h
      · cases h
        exact .inl rfl
      · cases h
  | write t off bytes =>
      obtain ⟨-, b₀, B₀, -, -, rfl⟩ := hI.write_step h
      exact .inl rfl
  | close t writeSize =>
      simp only [next] at h
      split at h
      · obtain ⟨B₀, -, h⟩ := Option.bind_eq_some_iff.mp h
        split at h
        · cases h
          exact .inl rfl
        · cases h
      · cases h
  | release b =>
      obtain ⟨B₀, -, h⟩ := Option.bind_eq_some_iff.mp h
      split at h
      · cases h
        exact .inr ⟨b, rfl, rfl⟩
      · cases h
  | exit t =>
      simp only [next] at h
      split at h
      · cases h
        exact .inl rfl
      · cases h

/-- **A step leaves the bytes of a live SendBuffer**, and destroys it only by its release. -/
theorem live_step {s s' : SendBufferState} (hI : s.SendBufferInv) {b : Nat} (hb : s.Live b)
    {l : SendBufferLabel} (hl : l ≠ .release b) (h : s.next l = some s') :
    s'.Live b ∧ s'.bytesAt b = s.bytesAt b := by
  obtain ⟨⟨B, hB, hc⟩, hr⟩ := hb
  have hk := kept_step hI hB hc h
  refine ⟨⟨⟨B, hk.buffer, hc⟩, fun hmem => ?_⟩, ?_⟩
  · rcases released_step hI h with hsame | ⟨b', rfl, hnew⟩
    · exact hr (hsame ▸ hmem)
    · rw [hnew] at hmem
      rcases List.mem_cons.mp hmem with rfl | hmem
      · exact hl rfl
      · exact hr hmem
  · have hB' : s.buffers b = some B := hB
    rw [bytesAt, bytesAt, hk.buffer, hB']
    exact hk.bytes

end SendBufferState

/-- The references to SendBuffers, known by their identities, that a session holds. -/
structure SendRefs where
  /-- the parameter `sendBuffer` of each thread inside `Send` -/
  param : Tid → Option Nat
  /-- `_sendQueue` -/
  sendQueue : List Nat
  /-- `pendingBuffers` of each thread inside `RegisterSend` -/
  pendingBuffers : Tid → List Nat
  /-- `pendingBuffers` as captured by the handler of each write -/
  captured : List (List Nat)

namespace SendRefs

def empty : SendRefs := ⟨fun _ => none, [], fun _ => [], []⟩

/-- The references after the action of thread `t` at a counter. -/
def act (r : SendRefs) (t : Tid) : Pc → SendRefs
  | .sendPush _ => { r with sendQueue := r.sendQueue ++ (r.param t).toList }
  | .regDrain _ => { r with
      sendQueue := []
      pendingBuffers := Function.update r.pendingBuffers t r.sendQueue }
  | .regIssue _ _ => { r with
      captured := r.captured ++ [r.pendingBuffers t]
      pendingBuffers := Function.update r.pendingBuffers t [] }
  | _ => r

/-- Thread `t` comes to a counter; `Send` drops its parameter when it returns. -/
def arrive (r : SendRefs) (t : Tid) : Pc → SendRefs
  | .idle => { r with param := Function.update r.param t none }
  | _ => r

/-- The references after a step from `c` to `c'`. A handler drops what it captured when it returns;
    here it does when it starts, which is the earlier. -/
def step (r : SendRefs) (c c' : SendConf) : Label → SendRefs
  | .run t => (r.act t (c.pc t)).arrive t (c'.pc t)
  | .complete _ i | .fail i _ => { r with captured := r.captured.eraseIdx i }
  | .call _ _ | .transmit _ _ | .disconnect | .connect => r

/-- The session refers to `b`; its threads are those below `m`. -/
def Holds (m : Nat) (r : SendRefs) (b : Nat) : Prop :=
  b ∈ r.sendQueue ∨ (∃ bs ∈ r.captured, b ∈ bs) ∨
    ∃ t, t < m ∧ (r.param t = some b ∨ b ∈ r.pendingBuffers t)

instance (m : Nat) (r : SendRefs) (b : Nat) : Decidable (r.Holds m b) :=
  inferInstanceAs (Decidable (_ ∨ _ ∨ ∃ t, t < m ∧ _))

end SendRefs

/-! ## 2. The machine -/

/-- A session: its send machine, the references it holds, and the bytes its writes have read from
    the memory. -/
structure SendSide where
  conf : SendConf
  refs : SendRefs
  read : List UInt8

namespace SendSide

/-- A session before `ProcessConnect`. -/
def fresh : SendSide := ⟨.fresh false, .empty, []⟩

/-- The bytes that the write `i` reads when it transmits `n` bytes. -/
def readMem (s : SendSide) (mem : SendBufferState) : Label → List UInt8
  | .transmit i n => (((s.refs.captured[i]?).getD []).flatMap mem.bytesAt).take n
  | .call _ _ | .run _ | .complete _ _ | .fail _ _ | .disconnect | .connect => []

/-- A step of the session other than a call of `Send`. -/
def next (k : Mutex.Kind) (mem : SendBufferState) (s : SendSide) (l : Label) : Option SendSide :=
  (s.conf.next k l).map fun c => ⟨c, s.refs.step s.conf c l, s.read ++ s.readMem mem l⟩

/-- The idle thread `t` calls `Send` with a reference to `b`. -/
def call (k : Mutex.Kind) (mem : SendBufferState) (s : SendSide) (t b : Nat) : Option SendSide :=
  (s.conf.next k (.call t (mem.bytesAt b))).map fun c =>
    { s with conf := c, refs := { s.refs with param := Function.update s.refs.param t (some b) } }

/-- No thread runs code of the session, and no handler holds it (`self`). -/
def Unused (m : Nat) (s : SendSide) : Prop :=
  (∀ t, t < m → s.conf.pc t = .idle) ∧ s.conf.sh.writes = []

instance (m : Nat) (s : SendSide) : Decidable (s.Unused m) := inferInstanceAs (Decidable (_ ∧ _))

end SendSide

/-- The SendBuffers of the program, and its sessions. -/
structure ZeroCopy where
  mem : SendBufferState
  side : Nat → SendSide

/-- What happens next. -/
inductive ZeroCopyLabel where
  /-- at the SendBuffers -/
  | mem (l : SendBufferLabel)
  /-- thread `t` calls `Send` of the session `i` with a reference to `b` -/
  | call (i t b : Nat)
  /-- in the session `i`, other than a call -/
  | send (i : Nat) (l : Label)
  /-- the session `i` is destroyed, and another one takes its place -/
  | renew (i : Nat)
  deriving DecidableEq, Repr

/-- Not a call, and no thread but those below `m` begins. -/
def Label.Begins (m : Nat) : Label → Prop
  | .call _ _ => False
  | .complete t _ => t < m
  | _ => True

instance (m : Nat) : (l : Label) → Decidable (l.Begins m)
  | .call _ _ => .isFalse id
  | .complete t _ => inferInstanceAs (Decidable (t < m))
  | .run _ | .transmit _ _ | .fail _ _ | .disconnect | .connect => .isTrue trivial

namespace ZeroCopy

/-- One of the first `n` sessions refers to `b`. -/
def Held (n m : Nat) (s : ZeroCopy) (b : Nat) : Prop := ∃ i, i < n ∧ (s.side i).refs.Holds m b

instance (n m : Nat) (s : ZeroCopy) (b : Nat) : Decidable (s.Held n m b) :=
  inferInstanceAs (Decidable (∃ i, i < n ∧ _))

def setSide (s : ZeroCopy) (i : Nat) (side : SendSide) : ZeroCopy :=
  { s with side := Function.update s.side i side }

/-- **The step function**, with `n` sessions and `m` threads. -/
def next (k : Mutex.Kind) (n m : Nat) (s : ZeroCopy) : ZeroCopyLabel → Option ZeroCopy
  | .mem (.release b) =>
      if s.Held n m b then none else (s.mem.next (.release b)).map fun mem => { s with mem }
  | .mem l => (s.mem.next l).map fun mem => { s with mem }
  | .call i t b =>
      if i < n ∧ t < m ∧ s.mem.Live b then
        ((s.side i).call k s.mem t b).map (s.setSide i)
      else none
  | .send i l =>
      if i < n ∧ l.Begins m then ((s.side i).next k s.mem l).map (s.setSide i) else none
  | .renew i => if i < n ∧ (s.side i).Unused m then some (s.setSide i .fresh) else none

def start : ZeroCopy := ⟨.fresh, fun _ => .fresh⟩

end ZeroCopy

/-! ## 3. One session -/

/-- **The invariant of a session**: what it refers to is alive, and has in memory the bytes that its
    send machine goes by. -/
structure SideInv (m : Nat) (mem : SendBufferState) (s : SendSide) : Prop where
  outside : ∀ t, m ≤ t → s.conf.pc t = .idle ∧ s.refs.param t = none ∧ s.refs.pendingBuffers t = []
  param : ∀ t b, (s.conf.pc t).toPush = some b →
    ∃ r, s.refs.param t = some r ∧ mem.bytesAt r = b
  sendQueue : s.refs.sendQueue.map mem.bytesAt = s.conf.sh.sendQueue
  batch : ∀ t, (s.refs.pendingBuffers t).map mem.bytesAt = (s.conf.pc t).batch
  writes : s.refs.captured.map (·.map mem.bytesAt) = s.conf.sh.writes.map Write.buffers
  read : s.read = s.conf.sh.wire
  live : ∀ b, s.refs.Holds m b → mem.Live b

theorem sideInv_fresh (m : Nat) (mem : SendBufferState) : SideInv m mem .fresh where
  outside _ _ := ⟨rfl, rfl, rfl⟩
  param _ _ h := nomatch h
  sendQueue := rfl
  batch _ := rfl
  writes := rfl
  read := rfl
  live b h := by
    rcases h with h | ⟨bs, h, -⟩ | ⟨t, -, h | h⟩
    · cases h
    · cases h
    · cases h
    · cases h

section Side

variable {m : Nat} {mem : SendBufferState} {s s' : SendSide}

theorem SideInv.lt_of_busy (hI : SideInv m mem s) {t : Tid} (h : s.conf.pc t ≠ .idle) : t < m :=
  Nat.lt_of_not_le fun hle => h (hI.outside t hle).1

/-- **What happens to the memory leaves a session alone**, where what it refers to stays alive and
    as it is. -/
theorem SideInv.frame (hI : SideInv m mem s) {mem' : SendBufferState}
    (h : ∀ b, s.refs.Holds m b → mem'.Live b ∧ mem'.bytesAt b = mem.bytesAt b) :
    SideInv m mem' s := by
  have hmap : ∀ bs : List Nat, (∀ b ∈ bs, s.refs.Holds m b) →
      bs.map mem'.bytesAt = bs.map mem.bytesAt :=
    fun bs hbs => List.map_congr_left fun b hb => (h b (hbs b hb)).2
  refine
    { outside := hI.outside
      param := fun t b hb => ?_
      sendQueue := (hmap _ fun b hb => .inl hb).trans hI.sendQueue
      batch := fun t => ?_
      writes := ?_
      read := hI.read
      live := fun b hb => (h b hb).1 }
  · obtain ⟨r, hr, rfl⟩ := hI.param t b hb
    have ht : t < m := hI.lt_of_busy fun hidle => by
      rw [hidle] at hb
      cases hb
    exact ⟨r, hr, (h r (.inr (.inr ⟨t, ht, .inl hr⟩))).2⟩
  · rw [← hI.batch t]
    refine hmap _ fun b hb => .inr (.inr ⟨t, Nat.lt_of_not_le fun hle => ?_, .inr hb⟩)
    rw [(hI.outside t hle).2.2] at hb
    cases hb
  · rw [← hI.writes]
    exact List.map_congr_left fun bs hbs => hmap bs fun b hb => .inr (.inl ⟨bs, hbs, hb⟩)

/-- A thread moves, to a shared state with the same bytes transmitted; the references of the other
    threads stay, and none to another SendBuffer is made. -/
theorem SideInv.move (hI : SideInv m mem s) {t : Tid} {sh : SendState} {p : Pc} {refs : SendRefs}
    (ht : t < m) (hparam : refs.param = s.refs.param)
    (hpush : ∀ b, p.toPush = some b → (s.conf.pc t).toPush = some b)
    (hother : ∀ u, u ≠ t → refs.pendingBuffers u = s.refs.pendingBuffers u)
    (hbatch : (refs.pendingBuffers t).map mem.bytesAt = p.batch)
    (hqueue : refs.sendQueue.map mem.bytesAt = sh.sendQueue)
    (hwrites : refs.captured.map (·.map mem.bytesAt) = sh.writes.map Write.buffers)
    (hwire : sh.wire = s.conf.sh.wire) (hholds : ∀ b, refs.Holds m b → s.refs.Holds m b) :
    SideInv m mem ⟨s.conf.set t sh p, refs, s.read⟩ where
  outside u hu := by
    have hne : u ≠ t := fun h => absurd (h ▸ ht) (Nat.not_lt.mpr hu)
    show (s.conf.set t sh p).pc u = .idle ∧ refs.param u = none ∧ refs.pendingBuffers u = []
    rw [SendConf.set_pc_of_ne _ _ _ hne, hother u hne, hparam]
    exact hI.outside u hu
  param u b hb := by
    show ∃ r, refs.param u = some r ∧ mem.bytesAt r = b
    rw [hparam]
    refine hI.param u b ?_
    by_cases hu : u = t
    · subst hu
      exact hpush b (by simpa using hb)
    · rwa [SendConf.set_pc_of_ne _ _ _ hu] at hb
  sendQueue := hqueue
  batch u := by
    show (refs.pendingBuffers u).map mem.bytesAt = ((s.conf.set t sh p).pc u).batch
    by_cases hu : u = t
    · subst hu
      rw [SendConf.set_pc_self]
      exact hbatch
    · rw [SendConf.set_pc_of_ne _ _ _ hu, hother u hu]
      exact hI.batch u
  writes := hwrites
  read := hI.read.trans hwire.symm
  live b hb := hI.live b (hholds b hb)

/-- **An action of a thread** keeps the invariant. -/
theorem SideInv.act (hI : SideInv m mem s) {k : Mutex.Kind} {t : Tid} {sh : SendState} {p : Pc}
    (h : localStep k t s.conf.sh (s.conf.pc t) = some (sh, p)) :
    SideInv m mem ⟨s.conf.set t sh p, s.refs.act t (s.conf.pc t), s.read⟩ := by
  have ht : t < m := hI.lt_of_busy fun hidle => by
    rw [hidle] at h
    cases h
  have hpush := (localStep_toPush h).1
  have hwire := (localStep_data h).2
  have hb := hI.batch t
  have hparam := hI.param t
  have hmove := @SideInv.move m mem s hI t sh p
  generalize s.conf.pc t = q at h hpush hb hparam hmove ⊢
  cases sendAction_of_step h with
  | push b =>
      -- the parameter is copied into the queue
      obtain ⟨r, hr, rfl⟩ := hparam b rfl
      refine hmove ht rfl hpush (fun _ _ => rfl) hb ?_ hI.writes rfl fun b hb => ?_
      · simp [SendRefs.act, hr, hI.sendQueue]
      · rcases hb with hb | hb
        · rcases List.mem_append.mp hb with hb | hb
          · exact .inl hb
          · exact .inr (.inr ⟨t, ht, .inl (by simpa using hb)⟩)
        · exact .inr hb
  | drain c =>
      -- the queue becomes the `pendingBuffers` of the thread
      refine hmove ht rfl hpush (fun u hu => Function.update_of_ne hu ..) ?_ rfl hI.writes rfl
        fun b hb => ?_
      · simp [SendRefs.act, Pc.batch, hI.sendQueue]
      · rcases hb with hb | hb | ⟨u, hu, hb | hb⟩
        · cases hb
        · exact .inr (.inl hb)
        · exact .inr (.inr ⟨u, hu, .inl hb⟩)
        · by_cases hut : u = t
          · subst hut
            exact .inl (by simpa [SendRefs.act] using hb)
          · exact .inr (.inr ⟨u, hu, .inr (by simpa [SendRefs.act, hut] using hb)⟩)
  | issue c bs =>
      -- the handler of the write captures them
      refine hmove ht rfl hpush (fun u hu => Function.update_of_ne hu ..) ?_ hI.sendQueue ?_ rfl
        fun b hb' => ?_
      · simp [SendRefs.act]
      · simpa [SendRefs.act, hI.writes, Pc.batch] using hb
      · rcases hb' with hb' | ⟨l, hl, hb'⟩ | ⟨u, hu, hb' | hb'⟩
        · exact .inl hb'
        · rcases List.mem_append.mp hl with hl | hl
          · exact .inr (.inl ⟨l, hl, hb'⟩)
          · obtain rfl := List.mem_singleton.mp hl
            exact .inr (.inr ⟨t, ht, .inr hb'⟩)
        · exact .inr (.inr ⟨u, hu, .inl hb'⟩)
        · by_cases hut : u = t
          · subst hut
            simp [SendRefs.act] at hb'
          · exact .inr (.inr ⟨u, hu, .inr (by simpa [SendRefs.act, hut] using hb')⟩)
  | registerDead c hc | regClear c =>
      exact hmove ht rfl hpush (fun _ _ => rfl) (hb.trans c.batch_return.symm) hI.sendQueue
        hI.writes rfl fun _ hb => hb
  | _ => exact hmove ht rfl hpush (fun _ _ => rfl) hb hI.sendQueue hI.writes rfl fun _ hb => hb

/-- `Send` drops its parameter where it returns. -/
theorem SideInv.arrive (hI : SideInv m mem s) (t : Tid) :
    SideInv m mem { s with refs := s.refs.arrive t (s.conf.pc t) } := by
  by_cases hidle : s.conf.pc t = .idle
  · have hrefs : s.refs.arrive t (s.conf.pc t) =
        { s.refs with param := Function.update s.refs.param t none } := by
      rw [hidle]
      rfl
    have hsub : ∀ u r, Function.update s.refs.param t none u = some r →
        s.refs.param u = some r := by
      intro u r hr
      by_cases hu : u = t
      · subst hu
        simp at hr
      · simpa [hu] using hr
    rw [hrefs]
    refine
      { hI with
        outside := fun u hu => ⟨(hI.outside u hu).1, ?_, (hI.outside u hu).2.2⟩
        param := fun u b hb => ?_
        live := fun b hb => hI.live b ?_ }
    · exact Option.eq_none_iff_forall_ne_some.mpr fun r hr =>
        Option.some_ne_none r ((hsub u r hr).symm.trans (hI.outside u hu).2.1)
    · have hu : u ≠ t := by
        rintro rfl
        rw [hidle] at hb
        cases hb
      obtain ⟨r, hr, hbytes⟩ := hI.param u b hb
      exact ⟨r, by simpa [hu] using hr, hbytes⟩
    · rcases hb with hb | hb | ⟨u, hu, hb | hb⟩
      · exact .inl hb
      · exact .inr (.inl hb)
      · exact .inr (.inr ⟨u, hu, .inl (hsub u b hb)⟩)
      · exact .inr (.inr ⟨u, hu, .inr hb⟩)
  · have hrefs : s.refs.arrive t (s.conf.pc t) = s.refs := by
      unfold SendRefs.arrive
      split
      · contradiction
      · rfl
    rw [hrefs]
    exact hI

/-- A handler drops what it captured. -/
theorem SideInv.dropWrite (hI : SideInv m mem s) (i : Nat) (sh : SendState)
    (hqueue : sh.sendQueue = s.conf.sh.sendQueue)
    (hwrites : sh.writes = s.conf.sh.writes.eraseIdx i) (hwire : sh.wire = s.conf.sh.wire) :
    SideInv m mem ⟨⟨sh, s.conf.pc⟩, { s.refs with captured := s.refs.captured.eraseIdx i },
      s.read⟩ where
  outside := hI.outside
  param := hI.param
  sendQueue := hI.sendQueue.trans hqueue.symm
  batch := hI.batch
  writes := by
    show (s.refs.captured.eraseIdx i).map _ = sh.writes.map Write.buffers
    rw [hwrites, ← List.eraseIdx_map, ← List.eraseIdx_map, hI.writes]
  read := hI.read.trans hwire.symm
  live b hb := by
    refine hI.live b ?_
    rcases hb with hb | ⟨bs, hbs, hb⟩ | hb
    · exact .inl hb
    · exact .inr (.inl ⟨bs, List.mem_of_mem_eraseIdx hbs, hb⟩)
    · exact .inr (.inr hb)

/-- A thread that pushes nothing starts or goes on. -/
theorem SideInv.goto (hI : SideInv m mem s) {t : Tid} {p : Pc} (ht : t < m)
    (hpush : p.toPush = none) (hbatch : p.batch = (s.conf.pc t).batch) :
    SideInv m mem ⟨s.conf.set t s.conf.sh p, s.refs, s.read⟩ :=
  hI.move ht rfl (fun b hb => absurd (hpush.symm.trans hb) (Option.some_ne_none b).symm)
    (fun _ _ => rfl) ((hI.batch t).trans hbatch.symm) hI.sendQueue hI.writes rfl fun _ hb => hb

/-- The bytes that a write reads are those of its buffers. -/
theorem SideInv.captured (hI : SideInv m mem s) {i : Nat} {w : Write}
    (hw : s.conf.sh.writes[i]? = some w) :
    ((s.refs.captured[i]?).getD []).flatMap mem.bytesAt = w.buffers.flatten := by
  have h := congrArg (·[i]?) hI.writes
  simp only [List.getElem?_map, hw, Option.map_some] at h
  obtain ⟨bs, hbs, hmap⟩ := Option.map_eq_some_iff.mp h
  rw [hbs, Option.getD_some, List.flatMap_def, hmap]

/-- **A step of the session keeps the invariant.** -/
theorem SideInv.next (hI : SideInv m mem s) {k : Mutex.Kind} {l : Label} (hl : l.Begins m)
    (h : s.next k mem l = some s') : SideInv m mem s' := by
  obtain ⟨c, hc, rfl⟩ := Option.map_eq_some_iff.mp h
  cases stepped_of_next hc with
  | call t b hidle => exact hl.elim
  | run t sh p hs =>
      have harr := (hI.act hs).arrive t
      rw [SendSide.readMem, List.append_nil]
      exact harr
  | transmit i n buffers hw hn =>
      -- the memory is read here
      refine { hI with writes := ?_, read := ?_ }
      · show s.refs.captured.map _ = (s.conf.sh.writes.set i ⟨buffers, some n⟩).map Write.buffers
        have hsame : (s.conf.sh.writes.map Write.buffers).set i buffers =
            s.conf.sh.writes.map Write.buffers := by
          obtain ⟨hi, hget⟩ := List.getElem?_eq_some_iff.mp hw
          have hset := congrArg (List.map Write.buffers) (List.set_getElem_self hi)
          rwa [hget, List.map_set] at hset
        rw [List.map_set, hsame]
        exact hI.writes
      · show s.read ++ _ = s.conf.sh.wire ++ _
        rw [SendSide.readMem, hI.captured hw, hI.read]
  | complete t i n buffers hw hidle =>
      rw [SendSide.readMem, List.append_nil]
      have hdrop := hI.dropWrite i { s.conf.sh with writes := s.conf.sh.writes.eraseIdx i }
        rfl rfl rfl
      exact hdrop.goto hl rfl (congrArg Pc.batch hidle).symm
  | fail i error buffers hw =>
      rw [SendState.handleError_eq, SendSide.readMem, List.append_nil]
      exact hI.dropWrite i _ rfl rfl rfl
  | disconnect =>
      rw [SendSide.readMem, List.append_nil]
      exact { hI with }
  | connect =>
      rw [SendSide.readMem, List.append_nil]
      exact { hI with }

/-- **A call of `Send`** with a live SendBuffer. -/
theorem SideInv.call (hI : SideInv m mem s) {k : Mutex.Kind} {t b : Nat} (ht : t < m)
    (hb : mem.Live b) (h : s.call k mem t b = some s') : SideInv m mem s' := by
  obtain ⟨c, hc, rfl⟩ := Option.map_eq_some_iff.mp h
  cases stepped_of_next hc with
  | call t b' hidle =>
      have hupd : ∀ u r, Function.update s.refs.param t (some b) u = some r →
          u = t ∧ r = b ∨ s.refs.param u = some r := by
        intro u r hr
        by_cases hu : u = t
        · subst hu
          rw [Function.update_self] at hr
          exact .inl ⟨rfl, (Option.some.inj hr).symm⟩
        · rw [Function.update_of_ne hu] at hr
          exact .inr hr
      have hother : ∀ u, u ≠ t → (s.conf.set t s.conf.sh (.sendCheck (mem.bytesAt b))).pc u =
          s.conf.pc u := fun u hu => s.conf.set_pc_of_ne _ _ hu
      refine
        { outside := fun u hu => ?_
          param := fun u x hx => ?_
          sendQueue := hI.sendQueue
          batch := fun u => ?_
          writes := hI.writes
          read := hI.read
          live := fun r hr => ?_ }
      · have hne : u ≠ t := fun h => absurd (h ▸ ht) (Nat.not_lt.mpr hu)
        obtain ⟨hpc, hparam, hpend⟩ := hI.outside u hu
        exact ⟨(hother u hne).trans hpc, (Function.update_of_ne hne ..).trans hparam, hpend⟩
      · by_cases hu : u = t
        · subst hu
          refine ⟨b, Function.update_self .., ?_⟩
          rw [show (s.conf.set u s.conf.sh _).pc u = _ from s.conf.set_pc_self ..] at hx
          exact Option.some.inj hx
        · obtain ⟨r, hr, hbytes⟩ := hI.param u x (hother u hu ▸ hx)
          exact ⟨r, (Function.update_of_ne hu ..).trans hr, hbytes⟩
      · show _ = ((s.conf.set t s.conf.sh _).pc u).batch
        by_cases hu : u = t
        · subst hu
          rw [SendConf.set_pc_self]
          exact (hI.batch u).trans (congrArg Pc.batch hidle : _ = Pc.idle.batch)
        · rw [hother u hu]
          exact hI.batch u
      · rcases hr with hr | hr | ⟨u, hu, hr | hr⟩
        · exact hI.live r (.inl hr)
        · exact hI.live r (.inr (.inl hr))
        · rcases hupd u r hr with ⟨-, rfl⟩ | hr
          · exact hb
          · exact hI.live r (.inr (.inr ⟨u, hu, .inl hr⟩))
        · exact hI.live r (.inr (.inr ⟨u, hu, .inr hr⟩))

end Side

/-! ## 4. All sessions -/

namespace ZeroCopy

/-- **The invariant.** -/
structure Inv (n m : Nat) (s : ZeroCopy) : Prop where
  mem : s.mem.SendBufferInv
  outside : ∀ i, n ≤ i → s.side i = .fresh
  side : ∀ i, SideInv m s.mem (s.side i)

theorem inv_start (n m : Nat) : start.Inv n m where
  mem := SendBufferState.sendBufferInv_fresh
  outside _ _ := rfl
  side _ := sideInv_fresh m _

section Steps

variable {k : Mutex.Kind} {n m : Nat} {s s' : ZeroCopy}

/-- **What a step can do**, one case for each rule. -/
inductive Stepped (k : Mutex.Kind) (n m : Nat) (s : ZeroCopy) : ZeroCopyLabel → ZeroCopy → Prop
  where
  | mem (l : SendBufferLabel) (mem : SendBufferState) (hfree : ∀ b, l = .release b → ¬ s.Held n m b)
      (h : s.mem.next l = some mem) : Stepped k n m s (.mem l) { s with mem }
  | call (i t b : Nat) (side : SendSide) (hi : i < n) (ht : t < m) (hb : s.mem.Live b)
      (h : (s.side i).call k s.mem t b = some side) :
      Stepped k n m s (.call i t b) (s.setSide i side)
  | send (i : Nat) (l : Label) (side : SendSide) (hi : i < n) (hl : l.Begins m)
      (h : (s.side i).next k s.mem l = some side) : Stepped k n m s (.send i l) (s.setSide i side)
  | renew (i : Nat) (hi : i < n) (hu : (s.side i).Unused m) :
      Stepped k n m s (.renew i) (s.setSide i .fresh)

theorem stepped_of_next {l : ZeroCopyLabel} (h : s.next k n m l = some s') :
    Stepped k n m s l s' := by
  cases l with
  | mem l =>
      cases l with
      | release b =>
          simp only [next] at h
          split at h
          · cases h
          · rename_i hfree
            obtain ⟨mem, hmem, rfl⟩ := Option.map_eq_some_iff.mp h
            exact .mem _ mem (fun b' hb' => SendBufferLabel.release.inj hb' ▸ hfree) hmem
      | call | run | write | close | exit =>
          obtain ⟨mem, hmem, rfl⟩ := Option.map_eq_some_iff.mp h
          exact .mem _ mem (fun b' hb' => by cases hb') hmem
  | call i t b =>
      simp only [next] at h
      split at h
      · rename_i hcall
        obtain ⟨side, hside, rfl⟩ := Option.map_eq_some_iff.mp h
        exact .call i t b side hcall.1 hcall.2.1 hcall.2.2 hside
      · cases h
  | send i l =>
      simp only [next] at h
      split at h
      · rename_i hsend
        obtain ⟨side, hside, rfl⟩ := Option.map_eq_some_iff.mp h
        exact .send i l side hsend.1 hsend.2 hside
      · cases h
  | renew i =>
      simp only [next] at h
      split at h
      · rename_i hunused
        cases h
        exact .renew i hunused.1 hunused.2
      · cases h

theorem Inv.setSide (hI : s.Inv n m) {i : Nat} (hi : i < n) {side : SendSide}
    (h : SideInv m s.mem side) : (s.setSide i side).Inv n m where
  mem := hI.mem
  outside j hj :=
    (Function.update_of_ne (show j ≠ i by omega) ..).trans (hI.outside j hj)
  side j := by
    show SideInv m s.mem (Function.update s.side i side j)
    by_cases hj : j = i
    · subst hj
      rw [Function.update_self]
      exact h
    · rw [Function.update_of_ne hj]
      exact hI.side j

/-- What a session refers to is held. -/
theorem Inv.held (hI : s.Inv n m) {i b : Nat} (h : (s.side i).refs.Holds m b) : s.Held n m b := by
  refine ⟨i, Nat.lt_of_not_le fun hle => ?_, h⟩
  rw [hI.outside i hle] at h
  rcases h with h | ⟨bs, h, -⟩ | ⟨t, -, h | h⟩ <;> cases h

/-- **A step keeps the invariant.** -/
theorem Inv.step (hI : s.Inv n m) {l : ZeroCopyLabel} (h : s.next k n m l = some s') :
    s'.Inv n m := by
  cases stepped_of_next h with
  | mem l mem hfree hmem =>
      refine ⟨hI.mem.step hmem, hI.outside, fun i => (hI.side i).frame fun b hb => ?_⟩
      exact SendBufferState.live_step hI.mem ((hI.side i).live b hb)
        (fun hl => hfree b hl (hI.held hb)) hmem
  | call i t b side hi ht hb hside => exact hI.setSide hi ((hI.side i).call ht hb hside)
  | send i l side hi hl hside => exact hI.setSide hi ((hI.side i).next hl hside)
  | renew i hi hu => exact hI.setSide hi (sideInv_fresh m _)

theorem Inv.of_reach {ok : ZeroCopy → ZeroCopyLabel → Prop} (hr : Reach (next k n m) ok start s) :
    s.Inv n m :=
  hr.invariant (inv_start n m) fun _ _ _ hI _ h => hI.step h

/-- The steps of the session `i` meet `ok`. -/
def SideOk (ok : SendConf → Label → Prop) (i : Nat) (s : ZeroCopy) : ZeroCopyLabel → Prop
  | .call j t b => j = i → ok (s.side j).conf (.call t (s.mem.bytesAt b))
  | .send j l => j = i → ok (s.side j).conf l
  | .mem _ | .renew _ => True

instance {ok : SendConf → Label → Prop} [∀ c l, Decidable (ok c l)] (i : Nat) (s : ZeroCopy) :
    (l : ZeroCopyLabel) → Decidable (SideOk ok i s l)
  | .call j _ _ => inferInstanceAs (Decidable (j = i → _))
  | .send j _ => inferInstanceAs (Decidable (j = i → _))
  | .mem _ | .renew _ => .isTrue trivial

/-- **What a session does is a run of its send machine.** -/
theorem reach_side {ok : SendConf → Label → Prop} {i : Nat}
    (hr : Reach (next k n m) (SideOk ok i) start s) :
    Reach (SendConf.next k) ok (.fresh false) (s.side i).conf := by
  induction hr with
  | start => exact .start
  | step s s' l _ hok h ih =>
      have hset : ∀ j side, (j = i → Reach (SendConf.next k) ok (.fresh false) side.conf) →
          Reach (SendConf.next k) ok (.fresh false) ((s.setSide j side).side i).conf := by
        intro j side hside
        show Reach _ ok _ (Function.update s.side j side i).conf
        by_cases hj : i = j
        · subst hj
          rw [Function.update_self]
          exact hside rfl
        · rw [Function.update_of_ne hj]
          exact ih
      cases stepped_of_next h with
      | mem l mem hfree hmem => exact ih
      | call j t b side hj ht hb hside =>
          obtain ⟨c, hc, rfl⟩ := Option.map_eq_some_iff.mp hside
          refine hset j _ fun e => ?_
          subst e
          exact .step _ _ _ ih (hok rfl) hc
      | send j l side hj hl hside =>
          obtain ⟨c, hc, rfl⟩ := Option.map_eq_some_iff.mp hside
          refine hset j _ fun e => ?_
          subst e
          exact .step _ _ _ ih (hok rfl) hc
      | renew j hj hu => exact hset j _ fun _ => .start

/-- Where the writes of a session transmit all their bytes, its stream has no losses. -/
theorem stream_of_fullWrites {c : SendConf}
    (hr : Reach (SendConf.next k) FullWrites (.fresh false) c) : StreamLaw c := by
  have hstream : ∃ mid, StreamInv c 0 mid := by
    induction hr with
    | start => exact ⟨[], streamInv_fresh false⟩
    | step c c' l hr hok h ih =>
        obtain ⟨mid, hS⟩ := ih
        obtain ⟨mid', hS'⟩ := hS.step (.of_reach hr) h
        rw [loses_of_fullWrites hok] at hS'
        exact ⟨mid', hS'⟩
  exact hstream.elim fun _ hS => hS.law

end Steps

/-! ## 5. The bytes transmitted -/

/-- **Sending without copies** in one state. -/
structure Law (n m : Nat) (s : ZeroCopy) : Prop where
  /-- what a session refers to is not destroyed -/
  live : ∀ i b, (s.side i).refs.Holds m b → s.mem.Live b
  /-- no chunk is reset that a session has a SendBuffer of -/
  reset : ∀ t swap size ch, s.mem.pc t = .reset swap size → s.mem.lSendBufferChunk t = some ch →
    ∀ i b B, (s.side i).refs.Holds m b → s.mem.buffers b = some B → B.owner ≠ ch
  /-- the memory of the parameter of `Send`, of what is queued, of the batch that `RegisterSend` has
      drained and of what is written has the bytes of the send machine -/
  param : ∀ i t b, ((s.side i).conf.pc t).toPush = some b →
    ∃ r, (s.side i).refs.param t = some r ∧ s.mem.bytesAt r = b
  queue : ∀ i, (s.side i).refs.sendQueue.map s.mem.bytesAt = (s.side i).conf.sh.sendQueue
  batch : ∀ i t, ((s.side i).refs.pendingBuffers t).map s.mem.bytesAt =
    ((s.side i).conf.pc t).batch
  writes : ∀ i, (s.side i).refs.captured.map (·.map s.mem.bytesAt) =
    (s.side i).conf.sh.writes.map Write.buffers
  /-- and so have the bytes that were read -/
  read : ∀ i, (s.side i).read = (s.side i).conf.sh.wire

theorem Inv.law {n m : Nat} {s : ZeroCopy} (hI : s.Inv n m) : s.Law n m where
  live i := (hI.side i).live
  reset t swap size ch hpc hch i b B hb hB := by
    obtain ⟨ch', hch', hown⟩ := hI.mem.law.reset t swap size hpc
    obtain rfl := Option.some.inj (hch.symm.trans hch')
    exact hown b B hB ((hI.side i).live b hb).2
  param i := (hI.side i).param
  queue i := (hI.side i).sendQueue
  batch i := (hI.side i).batch
  writes i := (hI.side i).writes
  read i := (hI.side i).read

/-- **Sending without copies is safe.** Whatever the threads do with the SendBuffers and on the
    sessions, in whatever order, what a session refers to is alive and unchanged since `Send` was
    called with it, and what a session does is a run of its send machine, which transmits what was
    read from the memory. For a session whose writes transmit all their bytes these are the first of
    the bytes that `Send` pushed, and all of them with nothing queued or in flight. -/
theorem zero_copy (k : Mutex.Kind) (n m : Nat) :
    (∀ s, Reach (next k n m) always start s → s.Law n m ∧
      ∀ i, Reach (SendConf.next k) always (.fresh false) (s.side i).conf) ∧
    (∀ i s, Reach (next k n m) (SideOk FullWrites i) start s →
      (s.side i).read <+: (s.side i).conf.sh.sent.flatten ∧
      (¬ InFlight (s.side i).conf → (s.side i).conf.sh.sendQueue = [] →
        (s.side i).read = (s.side i).conf.sh.sent.flatten)) := by
  refine ⟨fun s hr => ⟨(Inv.of_reach hr).law, fun i => reach_side (hr.mono ?_ fun _ _ _ h => h)⟩,
    fun i s hr => ?_⟩
  · rintro s (l | ⟨j, t, b⟩ | ⟨j, l⟩ | j) -
    · trivial
    · exact fun _ => trivial
    · exact fun _ => trivial
    · trivial
  · rw [((Inv.of_reach hr).side i).read]
    have hlaw := stream_of_fullWrites (reach_side hr)
    exact ⟨hlaw.isPrefix, hlaw.all⟩

/-- A SendBuffer is sent on two sessions; the first has transmitted it and handled its write, and
    the SendBuffer is held by the second until it has, too. -/
theorem zero_copy_two_sessions :
    ∃ s s' : ZeroCopy, Reach (next .plain 2 1) (SideOk FullWrites 1) start s ∧
      (s.side 0).read = [1, 2] ∧ s.mem.Live 0 ∧ s.next .plain 2 1 (.mem (.release 0)) = none ∧
      Reach (next .plain 2 1) (SideOk FullWrites 1) start s' ∧ (s'.side 1).read = [1, 2] ∧
      ¬ s'.mem.Live 0 := by
  obtain ⟨s, hs, hread, hfree, hheld, s', hs', hidle, hw, hq, hsent, hdead⟩ :
      ∃ s : ZeroCopy, exec (next .plain 2 1) (SideOk FullWrites 1) start
        ([.mem (.call 0 8)] ++ List.replicate 5 (.mem (.run 0)) ++
          [.mem (.write 0 0 [1, 2]), .mem (.close 0 2), .send 0 .connect, .send 1 .connect,
            .call 0 0 0] ++ List.replicate 10 (.send 0 (.run 0)) ++ [.call 1 0 0] ++
          List.replicate 10 (.send 1 (.run 0)) ++ (completionRun 0 2 5).map (.send 0)) = some s ∧
      (s.side 0).read = [1, 2] ∧ s.next .plain 2 1 (.mem (.release 0)) = none ∧
      (s.side 1).refs.Holds 1 0 ∧
      ∃ s' : ZeroCopy, exec (next .plain 2 1) (SideOk FullWrites 1) s
        ((completionRun 0 2 5).map (.send 1) ++ [.mem (.release 0)]) = some s' ∧
      (∀ t, (s'.side 1).conf.pc t = .idle) ∧ (s'.side 1).conf.sh.writes = [] ∧
      (s'.side 1).conf.sh.sendQueue = [] ∧ (s'.side 1).conf.sh.sent = [[1, 2]] ∧
      ¬ s'.mem.Live 0 := by
    refine ⟨_, rfl, rfl, rfl, .inr (.inl ⟨_, .head _, .head _⟩), _, rfl, fun t => ?_, rfl, rfl, rfl,
      by decide⟩
    cases t <;> rfl
  have hr := Reach.of_exec _ hs
  have hr' := hr.trans (.of_exec _ hs')
  refine ⟨s, s', hr, hread, ?_, hfree, hr', ?_, hdead⟩
  · have hlaw := ((zero_copy .plain 2 1).1 s (hr.mono (fun _ _ _ => trivial) fun _ _ _ h => h)).1
    exact hlaw.live 1 0 hheld
  · refine ((zero_copy .plain 2 1).2 1 s' hr').2 ?_ hq |>.trans ?_
    · rintro (⟨w, hmem, -⟩ | ⟨t, hb⟩)
      · rw [hw] at hmem
        cases hmem
      · rw [hidle t] at hb
        exact hb rfl
    · rw [hsent]
      rfl

end ZeroCopy

end ServerCore
