/-
  File:      ServerCore/SessionReuse.lean
  Subject:   A Session object used for one connection after another.

  `ProcessConnect` resets nothing but `_connected`: the receive buffer, `_sendQueue` and
  `_sendRegistered` are as the last connection left them, and handlers of its operations may be
  still to run. `reconnect_law`: where nothing is left of the earlier connections
  (`NothingLeft`), the next one is that of a session just constructed, step by step.

  * `SessionInv`: on every run, whatever is left over, the positions of the receive buffer are
    in order, every read stores inside it, and an empty unread range is at its front.
  * `Alike`: the states of a session and of a fresh one in lockstep. The two receive buffers
    agree on the bytes in use; what lies behind them differs.

  That each thing left behind shows is the subject of SessionLeftover.lean.
-/
import ServerCore.SendLock
import ServerCore.SessionMachine

namespace ServerCore

open Seg Trans

/-! ## 1. The invariant of a session -/

/-- The read stores inside a vector of this size, and brings at least one byte. -/
structure Read.Fits (capacity : Int) (r : Read) : Prop where
  inside : ((r.pos + r.room : Nat) : Int) ≤ capacity
  transferred : ∀ n, r.transferred = some n → 1 ≤ n ∧ n ≤ r.room

/-- **The invariant of a session**, over all its connections. -/
structure SessionInv (s : SessionConf) : Prop where
  wf : s.recvBuffer.Wf
  size : s.recvBuffer.bufferSize = Session.bufferSize
  reads : ∀ r ∈ s.reads, r.Fits s.recvBuffer.capacity
  lateReads : ∀ r ∈ s.lateReads, r.Fits s.recvBuffer.capacity
  front : s.recvBuffer.dataSize = 0 → s.recvBuffer.writePos = 0
  lock : LockInv s.send

namespace SessionInv

variable {s s' : SessionConf}

theorem fresh : SessionInv .fresh where
  wf := RecvBuffer.wf_new (by decide)
  size := rfl
  reads r hr := by cases hr
  lateReads r hr := by cases hr
  front _ := rfl
  lock := lockInv_fresh false

theorem disconnect (hI : SessionInv s) : SessionInv s.disconnect :=
  { hI with lock := fun u => hI.lock u }

/-- Other reads are outstanding. -/
theorem setReads (hI : SessionInv s) {rs : List Read}
    (h : ∀ r ∈ rs, r.Fits s.recvBuffer.capacity) : SessionInv { s with reads := rs } :=
  { hI with reads := h }

theorem eraseRead (hI : SessionInv s) (i : Nat) :
    SessionInv { s with reads := s.reads.eraseIdx i } :=
  hI.setReads fun r h => hI.reads r (List.mem_of_mem_eraseIdx h)

theorem eraseLateRead (hI : SessionInv s) (i : Nat) :
    SessionInv { s with lateReads := s.lateReads.eraseIdx i } :=
  { hI with lateReads := fun r h => hI.lateReads r (List.mem_of_mem_eraseIdx h) }

/-- The receive buffer moved on. -/
theorem setBuffer (hI : SessionInv s) {rb : RecvBuffer} (hwf : rb.Wf)
    (hcap : rb.capacity = s.recvBuffer.capacity) (hsize : rb.bufferSize = s.recvBuffer.bufferSize)
    (hfront : rb.dataSize = 0 → rb.writePos = 0) : SessionInv { s with recvBuffer := rb } where
  wf := hwf
  size := hsize.trans hI.size
  reads r hr := hcap ▸ hI.reads r hr
  lateReads r hr := hcap ▸ hI.lateReads r hr
  front := hfront
  lock := hI.lock

theorem setCalls (hI : SessionInv s) (calls : List RecvCall) :
    SessionInv { s with calls := calls } :=
  { hI with }

/-- Thread `t` moves in the receive code. -/
theorem setRecv (hI : SessionInv s) (t : Tid) (p : RecvPc) : SessionInv (s.setRecv t p) :=
  { hI with }

/-- The handler of a read that brought `n` bytes, up to `OnRecv`. -/
theorem onReadSome (hI : SessionInv s) (t : Tid) {n : Nat} (hn : 1 ≤ n) :
    SessionInv (s.onReadSome t n) := by
  have h2 := hI.wf.readLe
  unfold SessionConf.onReadSome
  cases hw : s.recvBuffer.onWrite n with
  | mk ok rb =>
      cases ok with
      | false => exact hI
      | true =>
          have hwf := hI.wf.onWrite hw
          obtain ⟨-, rfl⟩ := RecvBuffer.onWrite_eq_true hw
          refine (hI.setBuffer hwf rfl rfl ?_).setRecv t _
          unfold RecvBuffer.dataSize
          simp only
          omega

/-- The read that `RegisterRecv` issues stores into the free space. -/
theorem registerRecv (hI : SessionInv s) :
    Read.Fits s.recvBuffer.capacity
      ⟨s.recvBuffer.writePos.toNat, s.recvBuffer.freeSize.toNat, none⟩ where
  inside := by
    have h2 := hI.wf.readLe
    have h3 := hI.wf.writeLe
    have h4 := hI.wf.readNonneg
    unfold RecvBuffer.freeSize
    simp only
    omega
  transferred n h := by cases h

theorem receiveStep (hI : SessionInv s) {t : Tid} {p : RecvPc}
    (h : s.receiveStep t p = some s') : SessionInv s' := by
  cases p with
  | idle => cases h
  | onRecv buffer len processLen =>
      simp only [SessionConf.receiveStep] at h
      split at h
      · cases h
        exact hI.setRecv t _
      · cases h
        exact (hI.setCalls _).setRecv t _
  | onRead dataSize processLen =>
      simp only [SessionConf.receiveStep] at h
      split at h
      · cases h
        exact hI.disconnect.setRecv t _
      · split at h
        · cases h
          exact hI.disconnect.setRecv t _
        · rename_i rb hr
          obtain ⟨rb', hc, rfl⟩ := Option.map_eq_some_iff.mp h
          obtain ⟨hwf, hcap, hsize, hfront⟩ := (hI.wf.onRead hr).clean hc
          obtain ⟨-, rfl⟩ := RecvBuffer.onRead_eq_true hr
          exact (hI.setBuffer hwf hcap hsize hfront).setRecv t _
  | registerRecv =>
      simp only [SessionConf.receiveStep, Option.some.injEq] at h
      subst h
      refine (hI.setReads fun r hr => ?_).setRecv t _
      split at hr
      · rcases List.mem_append.mp hr with hr | hr
        · exact hI.reads r hr
        · rw [List.mem_singleton.mp hr]
          exact hI.registerRecv
      · exact hI.reads r hr

/-- **Every step keeps the invariant of a session.** -/
theorem step (hI : SessionInv s) {l : SessionLabel} (h : s.next l = some s') :
    SessionInv s' := by
  cases SessionConf.stepped_of_next h with
  | send l c hl hc => exact { hI with lock := hI.lock.step hc }
  | connect =>
      unfold SessionConf.connect
      split
      · exact hI
      · exact { hI with }
  | processConnect t hc ht =>
      have hlate : ∀ r ∈ s.lateReads ++ s.reads, r.Fits s.recvBuffer.capacity := by
        intro r hr
        rcases List.mem_append.mp hr with hr | hr
        · exact hI.lateReads r hr
        · exact hI.reads r hr
      exact ⟨hI.wf, hI.size, fun r hr => absurd hr List.not_mem_nil, hlate, hI.front,
        fun u => hI.lock u⟩
  | arrive i pos room bytes hr hpos hroom =>
      have hfit := (hI.reads _ (List.mem_of_getElem? hr)).inside
      have hin : ((pos + bytes.length : Nat) : Int) ≤ s.recvBuffer.capacity := by
        simp only at hfit
        omega
      refine ⟨hI.wf.store hin, hI.size, fun r hr' => ?_, hI.lateReads, hI.front, hI.lock⟩
      rcases List.mem_or_eq_of_mem_set hr' with hr' | rfl
      · exact hI.reads r hr'
      · refine ⟨hfit, fun n hn => ?_⟩
        cases hn
        exact ⟨hpos, hroom⟩
  | handle t i pos room n hr ht =>
      exact (hI.eraseRead i).onReadSome t
        ((hI.reads _ (List.mem_of_getElem? hr)).transferred n rfl).1
  | readFails i pos room hr =>
      exact (hI.eraseRead i).disconnect
  | receive t s' hs => exact hI.receiveStep hs
  | lateHandle t i pos room n hr ht =>
      exact (hI.eraseLateRead i).onReadSome t
        ((hI.lateReads _ (List.mem_of_getElem? hr)).transferred n rfl).1
  | lateReadFails i pos room hr =>
      exact (hI.eraseLateRead i).disconnect
  | lateComplete t i n buffers hw ht =>
      exact { hI with lock := hI.lock.keep rfl (by rw [ht.1]; rfl) }
  | lateWriteFails i buffers hw =>
      exact { hI with lock := fun u => by simpa only [SendState.handleError_eq] using hI.lock u }

theorem of_exec {ls : List SessionLabel}
    (h : exec SessionConf.next always .fresh ls = some s) : SessionInv s :=
  (Reach.of_exec ls h).invariant fresh fun _ _ _ hI _ hs => hI.step hs

end SessionInv

/-! ## 2. The bytes `OnRecv` looks at -/

/-- Two memories with the same data are parsed alike, pass by pass. -/
theorem PacketSession.pass_congr {mem mem' : List UInt8} {len : Nat} (hlen : len ≤ mem.length)
    (hlen' : len ≤ mem'.length) (h : mem.take len = mem'.take len) (processLen : Nat) :
    pass mem len processLen = pass mem' len processLen := by
  by_cases hp : processLen ≤ len
  · have hs : ∀ l : List UInt8, slice l processLen (len - processLen)
        = (l.take len).drop processLen := fun l => List.drop_take.symm
    rw [pass_eq_frame hlen hp, pass_eq_frame hlen' hp, hs mem, hs mem', h]
  · unfold pass sizeofPacketHeader
    simp only
    rw [if_pos (by omega), if_pos (by omega)]

/-- The packet a pass takes lies inside the data. -/
theorem PacketSession.pass_le {mem : List UInt8} {len processLen next : Nat}
    (h : pass mem len processLen = some next) : processLen ≤ next ∧ next ≤ len := by
  unfold pass at h
  simp only at h
  split at h
  · cases h
  · rename_i hd
    unfold sizeofPacketHeader at hd
    split at h
    · cases h
    · cases h
      omega

/-! ## 3. A session and a fresh one in lockstep -/

/-- Where the receive chain of a connection is: in its one read, or in one thread; what `OnRecv`
    parses lies before `_writePos`. -/
inductive Chain (reads : List Read) (rpc : Tid → RecvPc) (writePos : Nat) : Prop where
  | read (r : Read) (hreads : reads = [r]) (hidle : ∀ u, rpc u = .idle) (hpos : r.pos = writePos)
  | thread (t : Tid) (hreads : reads = []) (hidle : ∀ u, u ≠ t → rpc u = .idle)
      (hin : ∀ buffer len processLen, rpc t = .onRecv buffer len processLen →
        buffer + len ≤ writePos)

/-- The chain is in the read. -/
theorem Chain.of_getElem? {reads : List Read} {rpc : Tid → RecvPc} {writePos i : Nat} {r : Read}
    (h : Chain reads rpc writePos) (hr : reads[i]? = some r) :
    i = 0 ∧ reads = [r] ∧ (∀ u, rpc u = .idle) ∧ r.pos = writePos := by
  cases h with
  | read r₀ hreads hidle hpos =>
      rw [hreads] at hr
      cases i with
      | zero =>
          cases hr
          exact ⟨rfl, hreads, hidle, hpos⟩
      | succ i => cases hr
  | thread t hreads hidle hin =>
      rw [hreads] at hr
      cases hr

/-- The chain is in the thread. -/
theorem Chain.of_rpc {reads : List Read} {rpc : Tid → RecvPc} {writePos : Nat} {t : Tid}
    (h : Chain reads rpc writePos) (ht : rpc t ≠ .idle) :
    reads = [] ∧ (∀ u, u ≠ t → rpc u = .idle) ∧ ∀ buffer len processLen,
      rpc t = .onRecv buffer len processLen → buffer + len ≤ writePos := by
  cases h with
  | read r hreads hidle hpos => exact absurd (hidle t) ht
  | thread u hreads hidle hin =>
      have hu : t = u := by
        by_contra hne
        exact ht (hidle t hne)
      subst hu
      exact ⟨hreads, hidle, hin⟩

/-- The chain moves on in its thread. -/
theorem Chain.update {rpc : Tid → RecvPc} {writePos : Nat} {t : Tid} {p : RecvPc}
    (hidle : ∀ u, u ≠ t → rpc u = .idle)
    (hin : ∀ buffer len processLen, p = .onRecv buffer len processLen →
      buffer + len ≤ writePos) : Chain [] (Function.update rpc t p) writePos := by
  refine .thread t rfl (fun u hu => ?_) ?_
  · rw [Function.update_of_ne hu]
    exact hidle u hu
  · rw [Function.update_self]
    exact hin

namespace SessionConf

/-- How many bytes these reads have stored. -/
def stored : List Read → Nat
  | [] => 0
  | r :: rs => r.transferred.getD 0 + stored rs

/-- The bytes of the receive buffer in use: those before `_writePos`, and those a read has stored
    behind it. -/
def inUse (s : SessionConf) : Nat := s.recvBuffer.writePos.toNat + stored s.reads

/-- **A session and a fresh one alike**: nothing is left of earlier connections, and the two differ
    only behind the bytes in use. -/
structure Alike (s f : SessionConf) : Prop where
  send : s.send = f.send
  reads : s.reads = f.reads
  rpc : s.rpc = f.rpc
  connecting : s.connecting = f.connecting
  lateReads : s.lateReads = [] ∧ f.lateReads = []
  lateWrites : s.lateWrites = [] ∧ f.lateWrites = []
  calls : s.calls.map RecvCall.packet = f.calls.map RecvCall.packet
  chain : Chain f.reads f.rpc f.recvBuffer.writePos.toNat
  buffer : RecvBuffer.SameBelow f.inUse s.recvBuffer f.recvBuffer

namespace Alike

variable {s f : SessionConf}

theorem output (h : Alike s f) : s.output = f.output := by
  unfold SessionConf.output
  rw [h.calls, h.send]

theorem connected (h : Alike s f) : s.connected = f.connected := by
  unfold SessionConf.connected
  rw [h.send]

theorem disconnect (h : Alike s f) : Alike s.disconnect f.disconnect :=
  { h with
    send := by
      unfold SessionConf.disconnect
      rw [h.send] }

/-- The buffers agree before `_writePos`. -/
theorem below (h : Alike s f) :
    RecvBuffer.SameBelow f.recvBuffer.writePos.toNat s.recvBuffer f.recvBuffer :=
  h.buffer.mono (Nat.le_add_right _ _)

theorem sendStep (h : Alike s f) (l : Label) :
    Option.Rel Alike (s.sendStep l) (f.sendStep l) := by
  have hrun : Option.Rel Alike ((s.send.next .plain l).map fun c => { s with send := c })
      ((f.send.next .plain l).map fun c => { f with send := c }) := by
    rw [h.send]
    cases f.send.next .plain l with
    | none => exact .none
    | some c => exact .some { h with send := rfl }
  unfold SessionConf.sendStep
  cases l with
  | connect => exact .none
  | transmit i n =>
      simp only
      rw [h.connected]
      split
      · exact hrun
      · exact .none
  | complete t i =>
      simp only
      rw [congrFun h.rpc t]
      split
      · exact hrun
      · exact .none
  | call t b => exact hrun
  | run t => exact hrun
  | fail i error => exact hrun
  | disconnect => exact hrun

theorem connect (h : Alike s f) : Alike s.connect f.connect := by
  unfold SessionConf.connect
  rw [h.connected]
  split
  · exact h
  · exact { h with connecting := rfl }

theorem arrive (h : Alike s f) (hI : SessionInv s) (i : Nat) (bytes : List UInt8) :
    Option.Rel Alike (s.next (.arrive i bytes)) (f.next (.arrive i bytes)) := by
  simp only [SessionConf.next]
  rw [h.reads, h.connected]
  cases hr : f.reads[i]? with
  | none => exact .none
  | some r =>
      obtain ⟨pos, room, transferred⟩ := r
      cases transferred with
      | some n => exact .none
      | none =>
          simp only
          split
          · rename_i hc
            obtain ⟨rfl, hreads, hidle, hpos⟩ := h.chain.of_getElem? hr
            have hfit := (hI.reads ⟨pos, room, none⟩ (by rw [h.reads, hreads]; simp)).inside
            have hlen := hI.wf.lengthEq
            simp only at hpos hfit
            have hst := h.buffer.store pos bytes (by rw [hpos]; exact Nat.le_add_right _ _)
              (by omega)
            rw [hreads]
            refine .some { h with reads := rfl, chain := .read _ rfl hidle hpos, buffer := ?_ }
            have huse : inUse { f with
                recvBuffer := f.recvBuffer.store pos bytes
                reads := [(⟨pos, room, some bytes.length⟩ : Read)] } = pos + bytes.length := by
              rw [hpos]
              rfl
            rw [← huse] at hst
            exact hst
          · exact .none

theorem idle (h : Alike s f) (t : Tid) : s.Idle t ↔ f.Idle t := by
  unfold SessionConf.Idle
  rw [h.send, h.rpc]

/-- The chain, free of its read or thread, goes into thread `t` at `p`. -/
theorem setRecv (h : Alike s f) (hreads : f.reads = []) {t : Tid} {p : RecvPc}
    (hidle : ∀ u, u ≠ t → f.rpc u = .idle)
    (hin : ∀ buffer len processLen, p = .onRecv buffer len processLen →
      buffer + len ≤ f.recvBuffer.writePos.toNat) : Alike (s.setRecv t p) (f.setRecv t p) :=
  { h with
    rpc := congrArg (fun g : Tid → RecvPc => Function.update g t p) h.rpc
    chain := by
      have hc : Chain [] (f.setRecv t p).rpc f.recvBuffer.writePos.toNat :=
        Chain.update hidle hin
      rw [← hreads] at hc
      exact hc }

/-- The read is taken out of the chain, with all it stored still in use. -/
theorem eraseRead (h : Alike s f) {i : Nat} {r : Read} (hr : f.reads[i]? = some r) :
    Alike { s with reads := s.reads.eraseIdx i } { f with reads := f.reads.eraseIdx i } ∧
      f.reads.eraseIdx i = [] ∧ (∀ u, f.rpc u = .idle) := by
  obtain ⟨rfl, hreads, hidle, -⟩ := h.chain.of_getElem? hr
  have he : f.reads.eraseIdx 0 = [] := by rw [hreads]; rfl
  refine ⟨{ h with
    reads := by rw [h.reads]
    chain := .thread 0 he (fun u _ => hidle u) fun _ _ _ hp => ?_
    buffer := h.buffer.mono ?_ }, he, hidle⟩
  · rw [hidle 0] at hp
    cases hp
  · show f.recvBuffer.writePos.toNat + _ ≤ f.recvBuffer.writePos.toNat + _
    rw [he]
    exact Nat.add_le_add_left (Nat.zero_le _) _

/-- The handler of a read that stored `n` bytes, up to `OnRecv`. -/
theorem onReadSome (h : Alike s f) (hwf : f.recvBuffer.Wf) (hreads : f.reads = [])
    (hidle : ∀ u, f.rpc u = .idle) {n : Nat}
    (hb : RecvBuffer.SameBelow (f.recvBuffer.writePos.toNat + n) s.recvBuffer f.recvBuffer)
    (t : Tid) : Alike (s.onReadSome t n) (f.onReadSome t n) := by
  have hw := hb.onWrite n
  unfold SessionConf.onReadSome
  cases hs : s.recvBuffer.onWrite n with
  | mk ok rb =>
      cases hf : f.recvBuffer.onWrite n with
      | mk ok' rb' =>
          rw [hs, hf] at hw
          obtain ⟨rfl, hsame⟩ := hw
          cases ok with
          | false => exact h
          | true =>
              simp only at hsame ⊢
              have hwf' := hwf.onWrite hf
              have hpos : rb'.writePos = f.recvBuffer.writePos + n := by
                rw [(RecvBuffer.onWrite_eq_true hf).2]
              have h2 := hwf'.readLe
              have h3 := hwf'.readNonneg
              have h4 := hwf.readNonneg
              have h5 := hwf.readLe
              rw [hsame.readPos, hsame.dataSize]
              have hmid : Alike { s with recvBuffer := rb } { f with recvBuffer := rb' } :=
                { h with
                  chain := .thread t hreads (fun u _ => hidle u) fun _ _ _ hp => by
                    rw [hidle t] at hp
                    cases hp
                  buffer := hsame.mono (by
                    unfold inUse
                    simp only
                    rw [hreads, hpos]
                    simp only [stored]
                    omega) }
              refine hmid.setRecv hreads (fun u _ => hidle u) fun buffer len processLen hp => ?_
              cases hp
              unfold RecvBuffer.dataSize
              simp only
              omega

theorem handle (h : Alike s f) (hI : SessionInv f) (t : Tid) (i : Nat) :
    Option.Rel Alike (s.next (.handle t i)) (f.next (.handle t i)) := by
  simp only [SessionConf.next]
  rw [congrArg (fun rs : List Read => rs[i]?) h.reads]
  cases hr : f.reads[i]? with
  | none => exact .none
  | some r =>
      obtain ⟨pos, room, transferred⟩ := r
      cases transferred with
      | none => exact .none
      | some n =>
          simp only [h.idle t]
          split
          · obtain ⟨hmid, herase, hidle⟩ := h.eraseRead hr
            obtain ⟨-, hreads, -, -⟩ := h.chain.of_getElem? hr
            have hb := h.buffer
            have huse : f.inUse = f.recvBuffer.writePos.toNat + n := by
              unfold inUse
              rw [hreads]
              rfl
            rw [huse] at hb
            exact .some (hmid.onReadSome hI.wf herase hidle hb t)
          · exact .none

theorem readFails (h : Alike s f) (i : Nat) :
    Option.Rel Alike (s.next (.readFails i)) (f.next (.readFails i)) := by
  simp only [SessionConf.next]
  rw [congrArg (fun rs : List Read => rs[i]?) h.reads]
  cases hr : f.reads[i]? with
  | none => exact .none
  | some r =>
      obtain ⟨pos, room, transferred⟩ := r
      cases transferred with
      | some n => exact .none
      | none => exact .some (h.eraseRead hr).1.disconnect

/-- One pass of `OnRecv`. -/
theorem onRecv (h : Alike s f) (hs : s.recvBuffer.Wf) (hf : f.recvBuffer.Wf) {t : Tid}
    {buffer len processLen : Nat} (hp : f.rpc t = .onRecv buffer len processLen) :
    Option.Rel Alike (s.receiveStep t (.onRecv buffer len processLen))
      (f.receiveStep t (.onRecv buffer len processLen)) := by
  obtain ⟨hreads, hidle, hin⟩ := h.chain.of_rpc (t := t) (by rw [hp]; simp)
  have hle := hin buffer len processLen hp
  have hlen (b : RecvBuffer) (hwf : b.Wf) (hw : b.writePos = f.recvBuffer.writePos) :
      len ≤ (b.buffer.drop buffer).length := by
    have h1 := hwf.lengthEq
    have h2 := hwf.writeLe
    rw [List.length_drop]
    omega
  have hlen_s := hlen s.recvBuffer hs h.buffer.writePos
  have hlen_f := hlen f.recvBuffer hf rfl
  have hdata : (s.recvBuffer.buffer.drop buffer).take len
      = (f.recvBuffer.buffer.drop buffer).take len := h.below.slice_eq hle
  unfold SessionConf.receiveStep
  simp only
  rw [PacketSession.pass_congr hlen_s hlen_f hdata processLen]
  cases hpass : PacketSession.pass (f.recvBuffer.buffer.drop buffer) len processLen with
  | none => exact .some (h.setRecv hreads hidle fun _ _ _ hp => by cases hp)
  | some next =>
      -- the packet is the same range of the same data
      obtain ⟨h1, h2⟩ := PacketSession.pass_le hpass
      have hpacket : RecvCall.packet
            ⟨(s.recvBuffer.buffer.drop buffer).drop processLen, next - processLen⟩
          = RecvCall.packet
            ⟨(f.recvBuffer.buffer.drop buffer).drop processLen, next - processLen⟩ := by
        have hr := h.below.slice_eq (p := buffer + processLen) (n := next - processLen) (by omega)
        unfold slice at hr
        unfold RecvCall.packet
        simp only [List.drop_drop]
        exact hr
      have hmid : Alike
          { s with calls := s.calls ++
              [⟨(s.recvBuffer.buffer.drop buffer).drop processLen, next - processLen⟩] }
          { f with calls := f.calls ++
              [⟨(f.recvBuffer.buffer.drop buffer).drop processLen, next - processLen⟩] } :=
        { h with
          calls := by
            simp only [List.map_append, List.map_cons, List.map_nil]
            rw [h.calls, hpacket] }
      refine .some (hmid.setRecv hreads hidle fun buffer' len' _ hp => ?_)
      cases hp
      exact hle

/-- The handler behind `OnRecv`. -/
theorem onRead (h : Alike s f) (hs : s.recvBuffer.Wf) {t : Tid} {dataSize processLen : Nat}
    (hp : f.rpc t = .onRead dataSize processLen) :
    Option.Rel Alike (s.receiveStep t (.onRead dataSize processLen))
      (f.receiveStep t (.onRead dataSize processLen)) := by
  obtain ⟨hreads, hidle, -⟩ := h.chain.of_rpc (t := t) (by rw [hp]; simp)
  have hdead : Alike (s.disconnect.setRecv t .idle) (f.disconnect.setRecv t .idle) :=
    h.disconnect.setRecv hreads hidle fun _ _ _ hp => by cases hp
  have hr := h.below.onRead processLen
  unfold SessionConf.receiveStep
  simp only
  split
  · exact .some hdead
  · cases hrs : s.recvBuffer.onRead processLen with
    | mk ok rb =>
        cases hrf : f.recvBuffer.onRead processLen with
        | mk ok' rb' =>
            rw [hrs, hrf] at hr
            obtain ⟨rfl, hsame⟩ := hr
            cases ok with
            | false => exact .some hdead
            | true =>
                simp only at hsame ⊢
                have hpos : rb.writePos = f.recvBuffer.writePos := by
                  rw [← h.buffer.writePos, (RecvBuffer.onRead_eq_true hrs).2]
                have hclean := hsame.clean (hs.onRead hrs) (Nat.le_of_eq (by rw [hpos]))
                generalize rb.clean = o at hclean ⊢
                generalize rb'.clean = o' at hclean ⊢
                cases hclean with
                | none => exact .none
                | @some c c' hc =>
                  have hmid : Alike { s with recvBuffer := c } { f with recvBuffer := c' } :=
                    { h with
                      chain := .thread t hreads hidle fun _ _ _ hp' => by
                        rw [hp] at hp'
                        cases hp'
                      buffer := by
                        rw [hc.writePos] at hc
                        refine hc.mono ?_
                        unfold inUse
                        simp only
                        rw [hreads]
                        exact Nat.le_refl _ }
                  exact .some (hmid.setRecv hreads hidle fun _ _ _ hp => by cases hp)

/-- `RegisterRecv`. -/
theorem registerRecv (h : Alike s f) {t : Tid} (hp : f.rpc t = .registerRecv) :
    Option.Rel Alike (s.receiveStep t .registerRecv) (f.receiveStep t .registerRecv) := by
  obtain ⟨hreads, hidle, -⟩ := h.chain.of_rpc (t := t) (by rw [hp]; simp)
  have hall : ∀ u, Function.update f.rpc t .idle u = .idle := by
    intro u
    by_cases hu : u = t
    · rw [hu, Function.update_self]
    · rw [Function.update_of_ne hu]
      exact hidle u hu
  unfold SessionConf.receiveStep
  simp only
  rw [h.connected, h.reads, hreads, h.buffer.freeSize, h.buffer.writePos]
  refine .some { h with
    rpc := congrArg (fun g : Tid → RecvPc => Function.update g t .idle) h.rpc
    reads := rfl
    chain := ?_
    buffer := h.below.mono ?_ }
  · unfold SessionConf.setRecv
    simp only
    split
    · exact .read _ rfl hall rfl
    · exact .thread t rfl (fun u _ => hall u) fun _ _ _ hp => by
        rw [hall t] at hp
        cases hp
  · unfold inUse SessionConf.setRecv
    simp only
    split
    · exact Nat.le_refl _
    · exact Nat.le_refl _

theorem receive (h : Alike s f) (hs : s.recvBuffer.Wf) (hf : f.recvBuffer.Wf) (t : Tid) :
    Option.Rel Alike (s.next (.receive t)) (f.next (.receive t)) := by
  simp only [SessionConf.next]
  rw [h.send, h.rpc]
  split
  · cases hp : f.rpc t with
    | idle => exact .none
    | onRecv buffer len processLen => exact h.onRecv hs hf hp
    | onRead dataSize processLen => exact h.onRead hs hp
    | registerRecv => exact h.registerRecv hp
  · exact .none

/-- **Sessions alike take the same step**, on the one connection. -/
theorem step (h : Alike s f) (hs : SessionInv s) (hf : SessionInv f) {l : SessionLabel}
    (hl : ∀ t, l ≠ .processConnect t) : Option.Rel Alike (s.next l) (f.next l) := by
  cases l with
  | send l => exact h.sendStep l
  | connect => exact .some h.connect
  | processConnect t => exact absurd rfl (hl t)
  | arrive i bytes => exact h.arrive hs i bytes
  | handle t i => exact h.handle hf t i
  | readFails i => exact h.readFails i
  | receive t => exact h.receive hs.wf hf.wf t
  | lateHandle t i | lateReadFails i =>
      simp only [SessionConf.next, h.lateReads.1, h.lateReads.2, List.getElem?_nil]
      exact .none
  | lateComplete t i | lateWriteFails i =>
      simp only [SessionConf.next, h.lateWrites.1, h.lateWrites.2, List.getElem?_nil]
      exact .none

end Alike

/-! ## 4. The next connection -/

/-- **Nothing is left of the earlier connections**: no bytes unread, nothing queued or registered,
    no handler still to run, and no thread inside the session's code. -/
structure NothingLeft (s : SessionConf) : Prop where
  unread : s.recvBuffer.unread = []
  sendQueue : s.send.sh.sendQueue = []
  sendRegistered : s.send.sh.sendRegistered = false
  reads : s.reads = [] ∧ s.lateReads = []
  writes : s.send.sh.writes = [] ∧ s.lateWrites = []
  threads : ∀ t, s.Idle t

/-- A mutex that no thread holds is free. -/
theorem sendLock_of_idle {c : SendConf} (hI : LockInv c) (h : ∀ t, c.pc t = .idle) :
    c.sh.sendLock = none := by
  cases hm : c.sh.sendLock with
  | none => rfl
  | some m =>
      obtain ⟨u, d⟩ := m
      have hu := hI u
      rw [hm, h u] at hu
      simp [Mutex.depth, Pc.held] at hu

/-- An empty unread range is at the front of the buffer. -/
theorem positions_of_unread {s : SessionConf} (hI : SessionInv s)
    (h : s.recvBuffer.unread = []) : s.recvBuffer.readPos = 0 ∧ s.recvBuffer.writePos = 0 := by
  have hl := RecvBuffer.length_unread hI.wf
  rw [h] at hl
  have hd : s.recvBuffer.dataSize = 0 := hl.symm
  have hw := hI.front hd
  unfold RecvBuffer.dataSize at hd
  exact ⟨by omega, hw⟩

/-- **The next connection begins alike** with that of a session just constructed. -/
theorem NothingLeft.alike {s : SessionConf} (h : NothingLeft s) (hI : SessionInv s) (t : Tid) :
    Alike (s.processConnect t) (SessionConf.fresh.connect.processConnect t) where
  send := by
    have hpc : s.send.pc = fun _ => .idle := funext fun u => (h.threads u).1
    have hlock := sendLock_of_idle hI.lock fun u => (h.threads u).1
    show (⟨⟨true, s.send.sh.sendQueue, s.send.sh.sendRegistered, s.send.sh.sendLock, [], [], []⟩,
      s.send.pc⟩ : SendConf) = _
    rw [hpc, hlock, h.sendQueue, h.sendRegistered]
    rfl
  reads := rfl
  rpc := by
    have hrpc : s.rpc = fun _ => .idle := funext fun u => (h.threads u).2
    show Function.update s.rpc t .registerRecv = _
    rw [hrpc]
    rfl
  connecting := rfl
  lateReads := by
    refine ⟨?_, rfl⟩
    show s.lateReads ++ s.reads = []
    rw [h.reads.1, h.reads.2]
    rfl
  lateWrites := by
    refine ⟨?_, rfl⟩
    show s.lateWrites ++ s.send.sh.writes = []
    rw [h.writes.1, h.writes.2]
    rfl
  calls := rfl
  chain := Chain.update (fun _ _ => rfl) fun _ _ _ hp => by cases hp
  buffer := by
    obtain ⟨hr, hw⟩ := positions_of_unread hI h.unread
    have hwf := hI.wf
    have hnew : (RecvBuffer.new Session.bufferSize).Wf := RecvBuffer.wf_new (by decide)
    have hcap : s.recvBuffer.capacity = (RecvBuffer.new Session.bufferSize).capacity := by
      rw [hwf.capacityEq, hnew.capacityEq, hI.size]
      rfl
    have hlen : s.recvBuffer.buffer.length = (RecvBuffer.new Session.bufferSize).buffer.length := by
      have h1 := hwf.lengthEq
      have h2 := hnew.lengthEq
      omega
    exact ⟨hcap, hI.size, hr, hw, hlen, rfl⟩

/-- **When the next connection is that of a fresh session.** Whatever a session has been through:
    where `ProcessConnect` finds nothing left of the earlier connections, every run of the next
    one, its errors included, is one of a session just constructed, and delivers and writes the
    same. -/
theorem reconnect_law (ls₁ ls₂ : List SessionLabel) (s : SessionConf) (t : Tid)
    (hrun : exec SessionConf.next always .fresh ls₁ = some s) (hconnect : s.connecting = true)
    (hleft : NothingLeft s) (hone : ∀ u, .processConnect u ∉ ls₂) :
    (exec SessionConf.next always .fresh (ls₁ ++ .processConnect t :: ls₂)).map output =
      (exec SessionConf.next always .fresh
        (.connect :: .processConnect t :: ls₂)).map output := by
  have hI := SessionInv.of_exec hrun
  have hs : s.next (.processConnect t) = some (s.processConnect t) :=
    if_pos ⟨hconnect, hleft.threads t⟩
  have hf : SessionConf.fresh.connect.next (.processConnect t)
      = some (SessionConf.fresh.connect.processConnect t) := by
    simp only [SessionConf.next]
    exact if_pos ⟨rfl, rfl, rfl⟩
  have hfI : SessionInv SessionConf.fresh.connect :=
    SessionInv.fresh.step (l := .connect) rfl
  rw [exec_append, hrun, Option.bind_some, exec_cons trivial hs,
    exec_cons trivial (show SessionConf.fresh.next .connect = _ from rfl), exec_cons trivial hf]
  refine map_eq_of_rel (fun _ _ h => Alike.output h) (exec_lockstep
    (I := SessionInv) (J := SessionInv) (Q := fun l => ∀ u, l ≠ .processConnect u)
    (fun _ _ _ hI h => hI.step h) (fun _ _ _ hI h => hI.step h)
    (fun _ _ _ hs hf h hl => h.step hs hf hl) ls₂ (hI.step hs) (hfI.step hf)
    (hleft.alike hI t) ?_)
  rintro l hl u rfl
  exact hone u hl

/-- The law on a session whose first connection received a packet and came to rest. -/
theorem reconnect_law_one_packet :
    (exec next always fresh ([.connect, .processConnect 0, .receive 0, .arrive 0 [4, 0, 1, 0],
      .handle 0 0, .receive 0, .receive 0, .receive 0, .receive 0, .send .disconnect,
      .readFails 0, .connect] ++ .processConnect 0 ::
      [.receive 0, .arrive 0 [4, 0, 2, 0], .handle 0 0, .receive 0])).map output =
      some ⟨[[4, 0, 2, 0]], []⟩ := by
  refine (reconnect_law _ _ _ 0 rfl rfl ⟨rfl, rfl, rfl, ⟨rfl, rfl⟩, ⟨rfl, rfl⟩, fun t => ?_⟩
    (by simp)).trans rfl
  by_cases ht : t = 0
  · subst ht
    exact ⟨rfl, rfl⟩
  · have hrpc : ∀ (f : Tid → RecvPc) (p : RecvPc), Function.update f 0 p t = f t := fun f p =>
      Function.update_of_ne ht p f
    exact ⟨rfl, (hrpc _ _).trans ((hrpc _ _).trans ((hrpc _ _).trans ((hrpc _ _).trans
      ((hrpc _ _).trans ((hrpc _ _).trans (hrpc _ _))))))⟩

/-- The law fails where the first connection leaves two bytes of a packet unread: the packet
    the second one receives is then not delivered. -/
theorem leftover_bytes_misframe :
    (exec next always fresh ([.connect, .processConnect 0, .receive 0, .arrive 0 [8, 0],
      .handle 0 0, .receive 0, .receive 0, .receive 0, .send .disconnect, .readFails 0,
      .connect] ++ .processConnect 0 ::
      [.receive 0, .arrive 0 [4, 0, 1, 0], .handle 0 0, .receive 0])).map output =
      some ⟨[], []⟩ ∧
    (exec next always fresh (.connect :: .processConnect 0 ::
      [.receive 0, .arrive 0 [4, 0, 1, 0], .handle 0 0, .receive 0])).map output =
      some ⟨[[4, 0, 1, 0]], []⟩ :=
  ⟨rfl, rfl⟩

end SessionConf

end ServerCore
