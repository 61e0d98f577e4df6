/-
  File:      ServerCore/SessionLeftover.lean
  Subject:   What an earlier connection leaves behind in a Session shows on the next one.

  The law of SessionReuse.lean asks that nothing is left behind. Here each thing that can be is
  left behind, and what comes of it:

  * `registered_blocks`: a `_sendRegistered` left set stops all sends, for ever.
  * `leftover_delivered`: bytes left unread become the beginning of a packet.
  * `late_read_delivered`: what a read had brought to the earlier connection is delivered.
  * `leftover_sent`: buffers left in `_sendQueue` are written before the connection's own.
  * `late_failure_silences`: the handler of an aborted operation, running late, ends the
    connection.
  * `late_complete_jams`: the handler of a write that had completed, running late, waits for the
    lock it holds.

  For runs, `SendEffect` says what a step of a session does to its send path.
-/
import ServerCore.SendToken
import ServerCore.SessionReuse

namespace ServerCore

open Seg Trans

/-! ## 1. What a step does to the send path -/

namespace SessionConf

/-- **What a step does to the send path**: nothing, a step of the send machine, the start of the
    handler of a late write, or the next connection. -/
inductive SendEffect (s s' : SessionConf) : SessionLabel → Prop where
  | keep (l : SessionLabel) (he : s'.send = s.send) (hlate : s'.lateWrites = s.lateWrites) :
      SendEffect s s' l
  | step (l : SessionLabel) (m : Label) (hm : m ≠ .connect)
      (hs : s.send.next .plain m = some s'.send)
      (hlate : s.lateWrites = [] → s'.lateWrites = []) : SendEffect s s' l
  | late (t : Tid) (i n : Nat) (hne : s.lateWrites ≠ []) (hidle : s.send.pc t = .idle)
      (he : s'.send = s.send.set t s.send.sh (.procCheck n)) :
      SendEffect s s' (.lateComplete t i)
  | connect (t : Tid) (e : s' = s.processConnect t) : SendEffect s s' (.processConnect t)

theorem sendEffect_of_disconnect {s s' : SessionConf} (l : SessionLabel)
    (he : s'.send = s.disconnect.send) (hlate : s'.lateWrites = s.lateWrites) :
    SendEffect s s' l :=
  .step l .disconnect (by simp) (congrArg some he.symm) hlate.trans

theorem sendEffect_of_receiveStep {s s' : SessionConf} {t : Tid} {p : RecvPc}
    (h : s.receiveStep t p = some s') (l : SessionLabel) : SendEffect s s' l := by
  cases p with
  | idle => cases h
  | onRecv buffer len processLen =>
      simp only [receiveStep] at h
      split at h
      · cases h
        exact .keep l rfl rfl
      · cases h
        exact .keep l rfl rfl
  | onRead dataSize processLen =>
      simp only [receiveStep] at h
      split at h
      · cases h
        exact sendEffect_of_disconnect l rfl rfl
      · split at h
        · cases h
          exact sendEffect_of_disconnect l rfl rfl
        · obtain ⟨rb, -, rfl⟩ := Option.map_eq_some_iff.mp h
          exact .keep l rfl rfl
  | registerRecv =>
      cases h
      exact .keep l rfl rfl

theorem onReadSome_send (s : SessionConf) (t : Tid) (n : Nat) :
    (s.onReadSome t n).send = s.send ∧ (s.onReadSome t n).lateWrites = s.lateWrites := by
  unfold onReadSome
  split
  · exact ⟨rfl, rfl⟩
  · exact ⟨rfl, rfl⟩

theorem sendEffect_of_next {s s' : SessionConf} {l : SessionLabel} (h : s.next l = some s') :
    SendEffect s s' l := by
  cases stepped_of_next h with
  | send m c hm hc => exact .step _ m hm hc id
  | connect =>
      unfold connect
      split
      · exact .keep _ rfl rfl
      · exact .keep _ rfl rfl
  | processConnect t hc ht => exact .connect t rfl
  | arrive => exact .keep _ rfl rfl
  | handle t i pos room n hr ht =>
      obtain ⟨he, hl⟩ := onReadSome_send { s with reads := s.reads.eraseIdx i } t n
      exact .keep _ he hl
  | readFails i pos room hr => exact sendEffect_of_disconnect _ rfl rfl
  | receive t s' hs => exact sendEffect_of_receiveStep hs _
  | lateHandle t i pos room n hr ht =>
      obtain ⟨he, hl⟩ := onReadSome_send { s with lateReads := s.lateReads.eraseIdx i } t n
      exact .keep _ he hl
  | lateReadFails i pos room hr => exact sendEffect_of_disconnect _ rfl rfl
  | lateComplete t i n buffers hw ht =>
      exact .late t i n (fun e => by rw [e] at hw; cases hw) ht.1 rfl
  | lateWriteFails i buffers hw =>
      exact .step _ .disconnect (by simp) rfl fun e => by rw [e] at hw; cases hw

end SessionConf

/-! ## 2. A flag left behind -/

/-- `_sendRegistered` is set, no thread and no write is there to clear it, and nothing has been
    written on the connection. -/
structure Blocked (c : SendConf) : Prop where
  registered : c.sh.sendRegistered = true
  noThread : ∀ t, (c.pc t).token = false
  writes : c.sh.writes = []
  wire : c.sh.wire = []

/-- Errors and reconnects do not help: a blocked send path stays blocked. -/
theorem Blocked.step {k : Mutex.Kind} {c c' : SendConf} (h : Blocked c) {l : Label}
    (hl : c.next k l = some c') : Blocked c' := by
  have hpc : ∀ {t : Tid} {sh : SendState} {p : Pc}, p.token = false → ∀ u,
      ((c.set t sh p).pc u).token = false := fun hp =>
    SendConf.forall_pc_set (Q := fun p => p.token = false) h.noThread hp
  cases steppedNoWrite_of_next h.writes hl with
  | call t b hidle => exact ⟨h.registered, hpc rfl, h.writes, h.wire⟩
  | run t sh p hs =>
      have hwire := (localStep_data hs).2.trans h.wire
      cases localStep_token hs with
      | take hp hp' hr => exact absurd (hr.symm.trans h.registered) Bool.false_ne_true
      | keep hp hr hw =>
          exact ⟨hr.trans h.registered, hpc (hp.trans (h.noThread t)), hw.trans h.writes, hwire⟩
      | drop hp => exact absurd ((h.noThread t).symm.trans hp) Bool.false_ne_true
      | issue w hp => exact absurd ((h.noThread t).symm.trans hp) Bool.false_ne_true
  | disconnect => exact ⟨h.registered, h.noThread, h.writes, h.wire⟩
  | connect => exact ⟨h.registered, h.noThread, h.writes, h.wire⟩

namespace SessionConf

/-- **A `_sendRegistered` left behind stops all sends for ever**: where it is set, and no thread
    and no write of an earlier connection is there to clear it, no run of this connection or of
    any later one writes a byte. -/
theorem registered_blocks {s s' : SessionConf} {t : Tid}
    (hreg : s.send.sh.sendRegistered = true) (hidle : ∀ u, s.Idle u)
    (hwrites : s.send.sh.writes = [] ∧ s.lateWrites = [])
    (hr : Reach next always (s.processConnect t) s') : s'.output.written = [] := by
  have hlate : ∀ {s : SessionConf}, s.send.sh.writes = [] → s.lateWrites = [] →
      (s.processConnect t).lateWrites = [] := by
    intro s hw hl
    show s.lateWrites ++ s.send.sh.writes = []
    rw [hw, hl]
    rfl
  refine (hr.invariant (I := fun s => Blocked s.send ∧ s.lateWrites = [])
    ⟨⟨hreg, fun u => ?_, rfl, rfl⟩, hlate hwrites.1 hwrites.2⟩ ?_).1.wire
  · show (s.send.pc u).token = false
    rw [(hidle u).1]
    rfl
  rintro s s' l ⟨hb, hl⟩ - h
  cases sendEffect_of_next h with
  | keep l he hl' => exact ⟨he ▸ hb, hl'.trans hl⟩
  | step l m hm hs hl' => exact ⟨hb.step hs, hl' hl⟩
  | late u i n hne hidle he => exact absurd hl hne
  | connect u e =>
      subst e
      exact ⟨⟨hb.registered, hb.noThread, rfl, rfl⟩, hlate hb.writes hl⟩

/-! ## 3. Bytes left unread, or brought by a late read -/

/-- The first read of a connection, as far as `OnRecv`: it parses the bytes that were unread
    before, and what the read brought. -/
theorem exists_firstRead {s : SessionConf} {t : Tid} {w : List UInt8} (hI : SessionInv s)
    (hconnect : s.connecting = true) (hidle : s.Idle t) (hw : 1 ≤ w.length)
    (hroom : (w.length : Int) ≤ s.recvBuffer.freeSize) :
    ∃ s' : SessionConf, exec next always s
        [.processConnect t, .receive t, .arrive 0 w, .handle t 0] = some s' ∧
      s'.rpc t = .onRecv s'.recvBuffer.readPos.toNat s'.recvBuffer.dataSize.toNat 0 ∧
      s'.recvBuffer.Wf ∧ s'.recvBuffer.unread = s.recvBuffer.unread ++ w ∧
      s'.send.pc t = .idle ∧ s'.calls = [] := by
  -- `ProcessConnect`, and the read that `RegisterRecv` issues
  have h₁ : s.next (.processConnect t) = some (s.processConnect t) := if_pos ⟨hconnect, hidle⟩
  obtain ⟨s₂, h₂, hreads, hbuffer, hconnected, hidle₂, hcalls⟩ :
      ∃ s₂, (s.processConnect t).next (.receive t) = some s₂ ∧
        s₂.reads = [⟨s.recvBuffer.writePos.toNat, s.recvBuffer.freeSize.toNat, none⟩] ∧
        s₂.recvBuffer = s.recvBuffer ∧ s₂.connected = true ∧ s₂.Idle t ∧ s₂.calls = [] := by
    have hrpc : (s.processConnect t).rpc t = .registerRecv := Function.update_self _ _ _
    refine ⟨setRecv { s.processConnect t with
        reads := [⟨s.recvBuffer.writePos.toNat, s.recvBuffer.freeSize.toNat, none⟩] } t .idle,
      ?_, rfl, rfl, rfl, ⟨hidle.1, Function.update_self _ _ _⟩, rfl⟩
    simp only [next]
    rw [hrpc]
    exact if_pos hidle.1
  -- the read stores `w` behind the unread bytes
  have h₃ : s₂.next (.arrive 0 w) = some { s₂ with
      recvBuffer := s.recvBuffer.store s.recvBuffer.writePos.toNat w
      reads := [⟨s.recvBuffer.writePos.toNat, s.recvBuffer.freeSize.toNat, some w.length⟩] } := by
    simp only [next, hreads, hbuffer, List.getElem?_cons_zero]
    exact if_pos ⟨hconnected, hw, by omega⟩
  obtain ⟨rb, hwrite, hwf, hun, -⟩ := RecvBuffer.onWrite_spec hI.wf hroom
  have h₄ : SessionConf.next { s₂ with
      recvBuffer := s.recvBuffer.store s.recvBuffer.writePos.toNat w
      reads := [⟨s.recvBuffer.writePos.toNat, s.recvBuffer.freeSize.toNat, some w.length⟩] }
      (.handle t 0) = some (setRecv { s₂ with recvBuffer := rb, reads := [] } t
        (.onRecv rb.readPos.toNat rb.dataSize.toNat 0)) := by
    simp only [next, List.getElem?_cons_zero]
    refine (if_pos hidle₂).trans ?_
    unfold onReadSome
    simp only [hwrite]
    rfl
  have hexec : exec next always s [.processConnect t, .receive t, .arrive 0 w, .handle t 0]
      = some _ :=
    (exec_cons trivial h₁ _).trans ((exec_cons trivial h₂ _).trans
      ((exec_cons trivial h₃ _).trans (exec_cons trivial h₄ [])))
  exact ⟨_, hexec, Function.update_self _ _ _, hwf, hun, hidle₂.1, hcalls⟩

/-- One pass takes a packet that is all the unread bytes. -/
theorem pass_unread {rb : RecvBuffer} (hwf : rb.Wf) (hp : WellFormedPacket rb.unread) :
    PacketSession.pass (rb.buffer.drop rb.readPos.toNat) rb.dataSize.toNat 0
      = some rb.dataSize.toNat := by
  have hlen : rb.dataSize.toNat ≤ (rb.buffer.drop rb.readPos.toNat).length := by
    have h1 := hwf.lengthEq
    have h2 := hwf.writeLe
    have h3 := hwf.readNonneg
    have h4 := hwf.readLe
    unfold RecvBuffer.dataSize
    rw [List.length_drop]
    omega
  have hdata : rb.unread.length = rb.dataSize.toNat := by
    have h1 := RecvBuffer.length_unread hwf
    omega
  have hslice : slice (rb.buffer.drop rb.readPos.toNat) 0 (rb.dataSize.toNat - 0) = rb.unread :=
    rfl
  rw [PacketSession.pass_eq_frame hlen (Nat.zero_le _), hslice, hp.frame, hdata]
  exact congrArg some (Nat.zero_add _)

/-- Where the unread bytes are a packet, the first pass of `OnRecv` delivers it. -/
theorem exec_deliver {s : SessionConf} {t : Tid} (hwf : s.recvBuffer.Wf)
    (hp : WellFormedPacket s.recvBuffer.unread) (hidle : s.send.pc t = .idle)
    (hrpc : s.rpc t = .onRecv s.recvBuffer.readPos.toNat s.recvBuffer.dataSize.toNat 0)
    (hcalls : s.calls = []) :
    (exec next always s [.receive t]).map (fun s' => s'.output.delivered) =
      some [s.recvBuffer.unread] := by
  have hpass := pass_unread hwf hp
  have hnext : s.next (.receive t) = some (setRecv { s with
      calls := [⟨s.recvBuffer.readMem.drop 0, s.recvBuffer.dataSize.toNat - 0⟩] } t
      (.onRecv s.recvBuffer.readPos.toNat s.recvBuffer.dataSize.toNat
        s.recvBuffer.dataSize.toNat)) := by
    simp only [next, hrpc]
    rw [if_pos hidle]
    simp only [receiveStep, hpass, hcalls, List.nil_append]
    rfl
  rw [exec_cons trivial hnext]
  show some [(s.recvBuffer.readMem.drop 0).take (s.recvBuffer.dataSize.toNat - 0)] = _
  rw [List.drop_zero, Nat.sub_zero, RecvBuffer.take_readMem]

/-- **Bytes left unread become the beginning of a packet** of the next connection: where `w`
    completes them to a packet, the first read of the next connection, bringing `w` alone, has the
    whole packet delivered. -/
theorem leftover_delivered {s : SessionConf} {t : Tid} {w : List UInt8} (hI : SessionInv s)
    (hconnect : s.connecting = true) (hidle : s.Idle t) (hw : 1 ≤ w.length)
    (hroom : (w.length : Int) ≤ s.recvBuffer.freeSize)
    (hp : WellFormedPacket (s.recvBuffer.unread ++ w)) :
    (exec next always s ([.processConnect t, .receive t, .arrive 0 w, .handle t 0] ++
      [.receive t])).map (fun s' => s'.output.delivered) = some [s.recvBuffer.unread ++ w] := by
  obtain ⟨s', hexec, hrpc, hwf, hun, hpc, hcalls⟩ := exists_firstRead hI hconnect hidle hw hroom
  rw [← hun] at hp ⊢
  rw [exec_append, hexec, Option.bind_some]
  exact exec_deliver hwf hp hpc hrpc hcalls

/-- **A read that had completed on the earlier connection** is received on the next one: where it
    completes the unread bytes to a packet, its handler, running late on thread `v`, has that
    packet delivered before anything was received. -/
theorem late_read_delivered {s : SessionConf} {t v : Tid} {i room n : Nat} (hI : SessionInv s)
    (hconnect : s.connecting = true) (ht : s.Idle t) (hv : s.Idle v) (hvt : v ≠ t)
    (hr : (s.lateReads ++ s.reads)[i]? = some ⟨s.recvBuffer.writePos.toNat, room, some n⟩)
    (hroom : (n : Int) ≤ s.recvBuffer.freeSize)
    (hp : WellFormedPacket
      (s.recvBuffer.unread ++ slice s.recvBuffer.buffer s.recvBuffer.writePos.toNat n)) :
    (exec next always s ([.processConnect t, .lateHandle v i] ++ [.receive v])).map
      (fun s' => s'.output.delivered) = some
        [s.recvBuffer.unread ++ slice s.recvBuffer.buffer s.recvBuffer.writePos.toNat n] := by
  have h₁ : s.next (.processConnect t) = some (s.processConnect t) := if_pos ⟨hconnect, ht⟩
  have hrpc : (s.processConnect t).rpc v = .idle := by
    show Function.update s.rpc t .registerRecv v = .idle
    rw [Function.update_of_ne hvt, hv.2]
  obtain ⟨rb, hwrite⟩ : ∃ rb, s.recvBuffer.onWrite n = (true, rb) := ⟨_, if_neg (by omega)⟩
  have h₂ : (s.processConnect t).next (.lateHandle v i) = some (setRecv
      { s.processConnect t with
        recvBuffer := rb
        lateReads := (s.lateReads ++ s.reads).eraseIdx i } v
      (.onRecv rb.readPos.toNat rb.dataSize.toNat 0)) := by
    have hr' : (s.processConnect t).lateReads[i]? =
      some ⟨s.recvBuffer.writePos.toNat, room, some n⟩ := hr
    simp only [next, hr']
    refine (if_pos ⟨hv.1, hrpc⟩).trans ?_
    unfold onReadSome
    have hwrite' : (s.processConnect t).recvBuffer.onWrite n = (true, rb) := hwrite
    simp only [hwrite']
    rfl
  have hun : rb.unread
      = s.recvBuffer.unread ++ slice s.recvBuffer.buffer s.recvBuffer.writePos.toNat n :=
    RecvBuffer.unread_onWrite hI.wf hwrite
  rw [← hun] at hp ⊢
  rw [exec_append, exec_cons trivial h₁, exec_cons trivial h₂]
  exact exec_deliver (hI.wf.onWrite hwrite) hp hv.1 (Function.update_self _ _ _) rfl

end SessionConf

/-! ## 4. Buffers left queued -/

theorem SendConf.set_set (c : SendConf) (t : Tid) (sh sh' : SendState) (p p' : Pc) :
    (c.set t sh p).set t sh' p' = c.set t sh' p' := by
  simp [SendConf.set]

/-- A run that begins with an action of a thread at `p`. -/
theorem SendConf.exec_run {k : Mutex.Kind} {c : SendConf} {t : Tid} {sh sh' : SendState}
    {p p' : Pc} (h : localStep k t sh p = some (sh', p')) (ls : List Label) :
    exec (SendConf.next k) always (c.set t sh p) (.run t :: ls) =
      exec (SendConf.next k) always (c.set t sh' p') ls := by
  refine exec_cons trivial ?_ ls
  simp only [SendConf.next, SendConf.set_sh, SendConf.set_pc_self, h, Option.map_some,
    SendConf.set_set]

/-- `RegisterSend` goes on to the write with what it has drained. -/
theorem localStep_regRelease {k : Mutex.Kind} {t : Tid} {sh : SendState} {c : Caller}
    {sendBuffers : List SendBytes} (h : sendBuffers ≠ []) :
    localStep k t sh (.regRelease c sendBuffers) =
      some ({ sh with sendLock := Mutex.release sh.sendLock }, .regIssue c sendBuffers) := by
  cases sendBuffers with
  | nil => exact absurd rfl h
  | cons b bs => rfl

/-- **A `Send` that finds the flag clear and the lock free** hands all that is queued, and its
    buffer, to one write. -/
theorem SendConf.exec_send {c : SendConf} {t : Tid} (b : SendBytes) (hidle : c.pc t = .idle)
    (hconnected : c.sh.connected = true) (hreg : c.sh.sendRegistered = false)
    (hlock : c.sh.sendLock = none) :
    exec (SendConf.next .plain) always c (sendRun t b 10) = some (c.set t { c.sh with
      sendQueue := []
      sendRegistered := true
      writes := c.sh.writes ++ [⟨c.sh.sendQueue ++ [b], none⟩]
      sent := c.sh.sent ++ [b] } .idle) := by
  have hcall : c.next .plain (.call t b) = some (c.set t c.sh (.sendCheck b)) := if_pos hidle
  unfold sendRun
  rw [exec_cons trivial hcall]
  obtain ⟨⟨connected, sendQueue, sendRegistered, sendLock, writes, wire, sent⟩, pc⟩ := c
  simp only at hconnected hreg hlock
  subst hconnected hreg hlock
  simp only [List.replicate]
  -- `Send` as far as its `RegisterSend`, and that as far as the drained queue
  rw [exec_run rfl, exec_run rfl, exec_run rfl, exec_run rfl, exec_run rfl, exec_run rfl,
    exec_run rfl, exec_run rfl, exec_run (localStep_regRelease (by simp)), exec_run rfl]
  rfl

/-- A `Send` that finds the flag set leaves its buffer in the queue. -/
theorem SendConf.exec_queue {c : SendConf} {t : Tid} (b : SendBytes) (hidle : c.pc t = .idle)
    (hconnected : c.sh.connected = true) (hreg : c.sh.sendRegistered = true)
    (hlock : c.sh.sendLock = none) :
    exec (SendConf.next .plain) always c (sendRun t b 5) = some (c.set t { c.sh with
      sendQueue := c.sh.sendQueue ++ [b]
      sent := c.sh.sent ++ [b] } .idle) := by
  have hcall : c.next .plain (.call t b) = some (c.set t c.sh (.sendCheck b)) := if_pos hidle
  unfold sendRun
  rw [exec_cons trivial hcall]
  obtain ⟨⟨connected, sendQueue, sendRegistered, sendLock, writes, wire, sent⟩, pc⟩ := c
  simp only at hconnected hreg hlock
  subst hconnected hreg hlock
  simp only [List.replicate]
  rw [exec_run rfl, exec_run rfl, exec_run rfl, exec_run rfl, exec_run rfl]
  rfl

namespace SessionConf

/-- `sendRun` is a call and the thread's actions. -/
theorem mem_sendRun {t : Tid} {b : SendBytes} {n : Nat} {l : Label} (h : l ∈ sendRun t b n) :
    (∃ t b, l = .call t b) ∨ ∃ t, l = .run t := by
  unfold sendRun at h
  rcases List.mem_cons.mp h with rfl | h
  · exact .inl ⟨t, b, rfl⟩
  · exact .inr ⟨t, List.eq_of_mem_replicate h⟩

/-- Threads in the send code run as in the send machine. -/
theorem exec_send (ls : List Label) : ∀ (s : SessionConf),
    (∀ l ∈ ls, (∃ t b, l = .call t b) ∨ ∃ t, l = .run t) →
      exec next always s (ls.map .send) =
        (exec (SendConf.next .plain) always s.send ls).map fun c => { s with send := c } := by
  induction ls with
  | nil => exact fun s _ => rfl
  | cons l ls ih =>
      intro s h
      have hl : s.next (.send l) = (s.send.next .plain l).map fun c => { s with send := c } := by
        rcases h l List.mem_cons_self with ⟨t, b, rfl⟩ | ⟨t, rfl⟩
        · rfl
        · rfl
      rw [List.map_cons, exec, exec, if_pos (show always s _ from trivial),
        if_pos (show always s.send _ from trivial), hl]
      cases s.send.next .plain l with
      | none => rfl
      | some c =>
          exact ih { s with send := c } fun m hm => h m (List.mem_cons_of_mem _ hm)

/-- The only write transmits all it was given. -/
theorem exists_transmit {s : SessionConf} {buffers : List SendBytes} (hc : s.connected = true)
    (hw : s.send.sh.writes = [⟨buffers, none⟩]) :
    ∃ s', s.next (.send (.transmit 0 buffers.flatten.length)) = some s' ∧
      s'.send.sh.wire = s.send.sh.wire ++ buffers.flatten := by
  refine ⟨{ s with send := { s.send with sh := { s.send.sh with
    writes := [⟨buffers, some buffers.flatten.length⟩]
    wire := s.send.sh.wire ++ buffers.flatten } } }, ?_, rfl⟩
  simp only [next, sendStep, SendConf.next, hc, hw, List.getElem?_cons_zero, if_true,
    Nat.le_refl, List.take_length, List.set_cons_zero, Option.map_some]

/-- **Buffers left queued are written on the next connection**: its first `Send` hands them to
    the write, before its own buffer. -/
theorem leftover_sent {s : SessionConf} {t : Tid} (b : SendBytes) (hI : SessionInv s)
    (hconnect : s.connecting = true) (hreg : s.send.sh.sendRegistered = false)
    (hidle : ∀ u, s.Idle u) :
    (exec next always s (.processConnect t :: ((sendRun t b 10).map .send ++
      [.send (.transmit 0 (s.send.sh.sendQueue ++ [b]).flatten.length)]))).map
        (fun s' => s'.output.written) = some (s.send.sh.sendQueue.flatten ++ b) := by
  have h₁ : s.next (.processConnect t) = some (s.processConnect t) :=
    if_pos ⟨hconnect, hidle t⟩
  have hsend := SendConf.exec_send (c := (s.processConnect t).send) (t := t) b (hidle t).1 rfl hreg
    (sendLock_of_idle hI.lock fun u => (hidle u).1)
  rw [exec_cons trivial h₁, exec_append, exec_send _ _ fun l => mem_sendRun, hsend,
    Option.map_some, Option.bind_some]
  -- the write transmits all it was given
  obtain ⟨s', hnext, hwire⟩ := exists_transmit (s := { s.processConnect t with
    send := (s.processConnect t).send.set t { (s.processConnect t).send.sh with
      sendQueue := []
      sendRegistered := true
      writes := [⟨s.send.sh.sendQueue ++ [b], none⟩]
      sent := [b] } .idle }) rfl rfl
  refine (congrArg (Option.map _) (exec_cons trivial hnext [])).trans ?_
  show some s'.send.sh.wire = _
  rw [hwire]
  simp [processConnect, setRecv]

end SessionConf

/-! ## 5. Operations aborted late -/

/-- The thread has not yet asked `IsConnected()`. -/
def Pc.unchecked : Pc → Bool
  | .idle | .sendCheck _ | .procCheck _ => true
  | _ => false

/-- The session is disconnected, no thread is past its test of that, and nothing has been written
    on the connection. -/
structure Dead (c : SendConf) : Prop where
  connected : c.sh.connected = false
  unchecked : ∀ t, (c.pc t).unchecked = true
  writes : c.sh.writes = []
  wire : c.sh.wire = []

/-- On a disconnected session such a thread returns. -/
theorem localStep_unchecked {k : Mutex.Kind} {t : Tid} {sh sh' : SendState} {p p' : Pc}
    (h : localStep k t sh p = some (sh', p')) (hc : sh.connected = false)
    (hp : p.unchecked = true) : sh' = sh ∧ p' = .idle := by
  cases sendAction_of_step h with
  | send b hs => exact absurd (hc.symm.trans hs) Bool.false_ne_true
  | sendDead b => exact ⟨rfl, rfl⟩
  | proc n hs => exact absurd (hc.symm.trans hs) Bool.false_ne_true
  | procZero hs => exact absurd (hc.symm.trans hs) Bool.false_ne_true
  | procDead n => exact ⟨rfl, rfl⟩
  | _ => cases hp

theorem Dead.set {c : SendConf} (h : Dead c) {t : Tid} {p : Pc} (hp : p.unchecked = true) :
    Dead (c.set t c.sh p) :=
  ⟨h.connected, SendConf.forall_pc_set (Q := fun p => p.unchecked = true) h.unchecked hp,
    h.writes, h.wire⟩

theorem Dead.step {k : Mutex.Kind} {c c' : SendConf} (h : Dead c) {l : Label}
    (hl : l ≠ .connect) (hs : c.next k l = some c') : Dead c' := by
  cases steppedNoWrite_of_next h.writes hs with
  | call t b hidle => exact h.set rfl
  | run t sh p hrun =>
      obtain ⟨rfl, rfl⟩ := localStep_unchecked hrun h.connected (h.unchecked t)
      exact h.set rfl
  | disconnect => exact ⟨rfl, h.unchecked, h.writes, h.wire⟩
  | connect => exact absurd rfl hl

namespace SessionConf

/-- What the session does on its connection keeps it dead. -/
theorem dead_step {s s' : SessionConf} (h : Dead s.send) {l : SessionLabel}
    (hl : ∀ t, l ≠ .processConnect t) (hs : s.next l = some s') : Dead s'.send := by
  cases sendEffect_of_next hs with
  | keep l he hl => exact he ▸ h
  | step l m hm hs hl => exact h.step hm hs
  | late t i n hne hidle he => exact he ▸ h.set rfl
  | connect t e => exact absurd rfl (hl t)

/-- **An operation of an earlier connection that was aborted ends this one**: where its handler
    runs only now, before anything was sent, no run writes a byte until the session is connected
    once more. -/
theorem late_failure_silences {s s' s'' : SessionConf} {t : Tid} {l : SessionLabel}
    (hidle : ∀ u, s.Idle u) (hl : ∃ i, l = .lateReadFails i ∨ l = .lateWriteFails i)
    (hs : (s.processConnect t).next l = some s')
    (hr : Reach next (fun _ l => ∀ u, l ≠ .processConnect u) s' s'') : s''.output.written = [] := by
  have hpc : ∀ u, ((s.processConnect t).send.pc u).unchecked = true := by
    intro u
    show (s.send.pc u).unchecked = true
    rw [(hidle u).1]
    rfl
  have hdead : Dead s'.send := by
    obtain ⟨i, rfl | rfl⟩ := hl
    · cases stepped_of_next hs with
      | lateReadFails i pos room hr => exact ⟨rfl, hpc, rfl, rfl⟩
    · cases stepped_of_next hs with
      | lateWriteFails i buffers hw => exact ⟨rfl, hpc, rfl, rfl⟩
  exact (hr.invariant (I := fun s => Dead s.send) hdead
    fun _ _ _ hI hok h => dead_step hI hok h).wire

end SessionConf

/-! ## 6. A write that completed late -/

/-- The thread holds no lock and no buffers it has taken from the queue. -/
def Pc.beforeLock : Pc → Bool
  | .idle | .sendCheck _ | .sendAcquire _ | .procCheck _ | .procDisconnect | .procAcquire => true
  | _ => false

/-- Thread `v` waits for the lock it holds, all others are before theirs, and nothing has been
    written on the connection. -/
structure Jammed (c : SendConf) (v : Tid) : Prop where
  waits : c.pc v = .regAcquire .processSend
  held : ∃ d, c.sh.sendLock = some (v, d)
  others : ∀ u, u ≠ v → (c.pc u).beforeLock = true
  writes : c.sh.writes = []
  wire : c.sh.wire = []

/-- While another thread holds the lock, such a thread comes as far as it. -/
theorem localStep_beforeLock {t : Tid} {sh sh' : SendState} {p p' : Pc} {m : Tid × Nat}
    (h : localStep .plain t sh p = some (sh', p')) (hlock : sh.sendLock = some m)
    (hp : p.beforeLock = true) :
    p'.beforeLock = true ∧ sh'.sendLock = sh.sendLock ∧ sh'.writes = sh.writes ∧
      sh'.wire = sh.wire := by
  have hblocked : ∀ m', Mutex.acquire .plain sh.sendLock t ≠ some m' := by
    intro m'
    rw [hlock]
    simp [Mutex.acquire]
  cases sendAction_of_step h with
  | send b | sendDead b => exact ⟨rfl, rfl, rfl, rfl⟩
  | sendAcquire b m' hm => exact absurd hm (hblocked m')
  | proc n | procZero | procDead n | procDisconnect => exact ⟨rfl, rfl, rfl, rfl⟩
  | procAcquire m' hm => exact absurd hm (hblocked m')
  | _ => cases hp

/-- A thread that is not the jammed one moves, before its lock. -/
theorem Jammed.set {c : SendConf} {v : Tid} (h : Jammed c v) {t : Tid} (ht : t ≠ v)
    {sh : SendState} {p : Pc} (hp : p.beforeLock = true) (hl : sh.sendLock = c.sh.sendLock)
    (hw : sh.writes = c.sh.writes) (hwire : sh.wire = c.sh.wire) : Jammed (c.set t sh p) v where
  waits := (c.set_pc_of_ne sh p (Ne.symm ht)).trans h.waits
  held := by
    rw [SendConf.set_sh, hl]
    exact h.held
  others u hu := by
    by_cases hut : u = t
    · subst hut
      rw [SendConf.set_pc_self]
      exact hp
    · rw [c.set_pc_of_ne sh p hut]
      exact h.others u hu
  writes := hw.trans h.writes
  wire := hwire.trans h.wire

theorem Jammed.selfLock {c : SendConf} {v : Tid} (h : Jammed c v) : SelfLock c v := by
  obtain ⟨d, hlock⟩ := h.held
  refine ⟨by rw [h.waits]; rfl, ?_⟩
  rw [hlock]
  simp [Mutex.depth]

theorem Jammed.ne_of_idle {c : SendConf} {v t : Tid} (h : Jammed c v) (ht : c.pc t = .idle) :
    t ≠ v := by
  rintro rfl
  rw [h.waits] at ht
  cases ht

theorem Jammed.step {c c' : SendConf} {v : Tid} (h : Jammed c v) {l : Label}
    (hs : c.next .plain l = some c') : Jammed c' v := by
  obtain ⟨d, hlock⟩ := h.held
  cases steppedNoWrite_of_next h.writes hs with
  | call t b hidle => exact h.set (h.ne_of_idle hidle) rfl rfl rfl rfl
  | run t sh p hrun =>
      have ht : t ≠ v := by
        rintro rfl
        rw [h.waits] at hrun
        simp [localStep, hlock, Mutex.acquire] at hrun
      obtain ⟨hp, hl, hw, hwire⟩ := localStep_beforeLock hrun hlock (h.others t ht)
      exact h.set ht hp hl hw hwire
  | disconnect => exact ⟨h.waits, h.held, h.others, h.writes, h.wire⟩
  | connect => exact ⟨h.waits, h.held, h.others, h.writes, h.wire⟩

/-- A handler that finds the queue non-empty comes as far as the lock it holds. -/
theorem SendConf.exec_jam {c : SendConf} {v : Tid} {n : Nat} (hconnected : c.sh.connected = true)
    (hlock : c.sh.sendLock = none) (hq : c.sh.sendQueue ≠ []) (hn : n ≠ 0) :
    exec (SendConf.next .plain) always (c.set v c.sh (.procCheck n)) (List.replicate 4 (.run v)) =
      some (c.set v { c.sh with sendLock := some (v, 0) } (.regAcquire .processSend)) := by
  have hcheck : localStep .plain v c.sh (.procCheck n) = some (c.sh, .procAcquire) := by
    simp only [localStep, hconnected, if_true, if_neg hn]
  have hacquire : localStep .plain v c.sh .procAcquire =
      some ({ c.sh with sendLock := some (v, 0) }, .procTest) := by
    simp only [localStep, hlock, Mutex.acquire, Option.map_some]
  have htest : localStep .plain v { c.sh with sendLock := some (v, 0) } .procTest =
      some ({ c.sh with sendLock := some (v, 0) }, .regCheck .processSend) := by
    simp only [localStep, List.isEmpty_eq_false_iff.mpr hq]
    rfl
  have hreg : localStep .plain v { c.sh with sendLock := some (v, 0) } (.regCheck .processSend) =
      some ({ c.sh with sendLock := some (v, 0) }, .regAcquire .processSend) := by
    simp only [localStep, hconnected, if_true]
  simp only [List.replicate]
  rw [exec_run hcheck, exec_run hacquire, exec_run htest, exec_run hreg]
  rfl

namespace SessionConf

/-- A jammed session stays jammed, over all its connections. -/
theorem jammed_step {s s' : SessionConf} {v : Tid} (h : Jammed s.send v) {l : SessionLabel}
    (hs : s.next l = some s') : Jammed s'.send v := by
  cases sendEffect_of_next hs with
  | keep l he hl => exact he ▸ h
  | step l m hm hs hl => exact h.step hs
  | late t i n hne hidle he => exact he ▸ h.set (h.ne_of_idle hidle) rfl rfl rfl rfl
  | connect t e =>
      subst e
      exact ⟨h.waits, h.held, h.others, rfl, rfl⟩

/-- **A write that had completed on the earlier connection jams the next one**: where its handler
    runs late, after a first `Send`, which finds the flag set and leaves its buffer to whoever set
    it, the handler waits for the lock it holds, and no run of this connection or of any later one
    writes a byte. -/
theorem late_complete_jams {s : SessionConf} {t u v : Tid} {i n : Nat} {buffers : List SendBytes}
    (b : SendBytes) (hI : SessionInv s) (hconnect : s.connecting = true)
    (hreg : s.send.sh.sendRegistered = true) (hidle : ∀ u, s.Idle u) (hvt : v ≠ t)
    (hw : (s.lateWrites ++ s.send.sh.writes)[i]? = some ⟨buffers, some n⟩) (hn : n ≠ 0) :
    ∃ s', exec next always s (.processConnect t :: ((sendRun u b 5).map .send ++
        .lateComplete v i :: (List.replicate 4 (.run v)).map .send)) = some s' ∧
      SelfLock s'.send v ∧
      ∀ s'', Reach next always s' s'' → s''.output.written = [] := by
  have h₁ : s.next (.processConnect t) = some (s.processConnect t) :=
    if_pos ⟨hconnect, hidle t⟩
  -- the `Send`, and the configuration it returns in
  obtain ⟨c, hqueue, hconnected, hlock, hq, hpc, hwrites, hwire⟩ : ∃ c : SendConf,
      exec (SendConf.next .plain) always (s.processConnect t).send (sendRun u b 5) = some c ∧
      c.sh.connected = true ∧ c.sh.sendLock = none ∧ c.sh.sendQueue ≠ [] ∧
      (∀ u, c.pc u = .idle) ∧ c.sh.writes = [] ∧ c.sh.wire = [] := by
    have hlock := sendLock_of_idle hI.lock fun u => (hidle u).1
    exact ⟨_, SendConf.exec_queue b (hidle u).1 rfl hreg hlock, rfl, hlock, by simp,
      SendConf.forall_pc_set (Q := (· = .idle)) (fun u => (hidle u).1) rfl, rfl, rfl⟩
  -- the handler starts, and waits for its own lock
  have h₂ : SessionConf.next { s.processConnect t with send := c } (.lateComplete v i) =
      some { s.processConnect t with
        lateWrites := (s.lateWrites ++ s.send.sh.writes).eraseIdx i
        send := c.set v c.sh (.procCheck n) } := by
    have hrpc : (s.processConnect t).rpc v = .idle := by
      show Function.update s.rpc t .registerRecv v = .idle
      rw [Function.update_of_ne hvt]
      exact (hidle v).2
    have hw' : (s.processConnect t).lateWrites[i]? = some ⟨buffers, some n⟩ := hw
    simp only [next, hw']
    exact if_pos ⟨hpc v, hrpc⟩
  have hjam := SendConf.exec_jam (v := v) hconnected hlock hq hn
  have hJ : Jammed (c.set v { c.sh with sendLock := some (v, 0) } (.regAcquire .processSend)) v :=
    { waits := SendConf.set_pc_self _ _ _ _
      held := ⟨0, rfl⟩
      others := fun u hu => by
        rw [c.set_pc_of_ne _ _ hu, hpc u]
        rfl
      writes := hwrites
      wire := hwire }
  refine ⟨{ s.processConnect t with
    lateWrites := (s.lateWrites ++ s.send.sh.writes).eraseIdx i
    send := c.set v { c.sh with sendLock := some (v, 0) } (.regAcquire .processSend) },
    ?_, hJ.selfLock, fun s'' hr => ?_⟩
  · rw [exec_cons trivial h₁, exec_append, exec_send _ _ fun l => mem_sendRun, hqueue,
      Option.map_some, Option.bind_some, exec_cons trivial h₂,
      exec_send _ _ fun l hl => .inr ⟨v, List.eq_of_mem_replicate hl⟩, hjam]
    rfl
  · exact (hr.invariant (I := fun s => Jammed s.send v) hJ
      fun _ _ _ hI _ h => jammed_step hI h).wire

end SessionConf

end ServerCore
