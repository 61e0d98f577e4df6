/-
  File:      ServerCore/PacketLink.lean
  Subject:   Send on one session and OnRecvPacket on the session at the other end.

  `PacketLink` is a sending session with all its threads (`SendConf`) and the pipe to the session at
  the other end. What the writes of the sender transmit goes on the way; so neither the writes nor
  the reads know where a packet ends.

  * `LinkInv`: what was delivered, what is unread and what is on the way make up what the writes
    transmitted, and what was delivered are the first of the packets sent.
  * `packet_link`: hence on every run whose writes transmit all their bytes, the packets delivered
    are the first of those sent, no read fails, and with nothing left anywhere all are delivered;
    without errors nothing is left once every thread has returned and every write is handled.
  * `packet_link_refines_pipe`: such a run is, for the receiver, one of a pipe on which each packet
    is put whole at the moment it is pushed.
-/
import ServerCore.PacketPipe
import ServerCore.SendFlow
import ServerCore.SendStream

namespace ServerCore

open Trans

/-! ## 1. What is sent -/

/-- The buffer that a thread inside `Send` has yet to push. -/
def Pc.toPush : Pc → Option SendBytes
  | .sendCheck b | .sendAcquire b | .sendPush b => some b
  | _ => none

/-- What is sent and what is about to be sent has the property `P`. -/
structure SendsOnly (P : SendBytes → Prop) (c : SendConf) : Prop where
  sent : ∀ b ∈ c.sh.sent, P b
  toPush : ∀ t b, (c.pc t).toPush = some b → P b

/-- What `Send` is called with has the property `P`. -/
def CallsOnly (P : SendBytes → Prop) : Label → Prop
  | .call _ b => P b
  | _ => True

instance (P : SendBytes → Prop) [DecidablePred P] : (l : Label) → Decidable (CallsOnly P l)
  | .call _ b => inferInstanceAs (Decidable (P b))
  | .run _ | .transmit _ _ | .complete _ _ | .fail _ _ | .disconnect | .connect => .isTrue trivial

theorem sendsOnly_fresh (P : SendBytes → Prop) (connected : Bool) :
    SendsOnly P (.fresh connected) where
  sent _ h := nomatch h
  toPush _ _ h := nomatch h

@[simp] theorem Caller.toPush_return (c : Caller) : c.return.toPush = none := by
  cases c <;> rfl

/-- **What an action does with the buffer to push**: it pushes it, or leaves it. -/
theorem localStep_toPush {k : Mutex.Kind} {t : Tid} {s s' : SendState} {p p' : Pc}
    (h : localStep k t s p = some (s', p')) :
    (∀ b, p'.toPush = some b → p.toPush = some b) ∧
      ∀ b ∈ s'.sent, b ∈ s.sent ∨ p.toPush = some b := by
  have hkeep : ∀ b ∈ s.sent, b ∈ s.sent ∨ p.toPush = some b := fun _ hb => .inl hb
  have hnone : ∀ b, none = some b → p.toPush = some b := fun _ hb => nomatch hb
  cases sendAction_of_step h with
  | send b hc => exact ⟨fun _ hb => hb, hkeep⟩
  | sendAcquire b m hm => exact ⟨fun _ hb => hb, hkeep⟩
  | push b =>
      refine ⟨fun _ hb => (nomatch hb), fun b' hb' => ?_⟩
      rcases List.mem_append.mp hb' with hb' | hb'
      · exact .inl hb'
      · exact .inr (congrArg some (List.mem_singleton.mp hb').symm)
  | registerDead c hc | regClear c | issue c =>
      exact ⟨c.toPush_return ▸ hnone, hkeep⟩
  | _ => exact ⟨hnone, hkeep⟩

theorem SendsOnly.set {P : SendBytes → Prop} {c : SendConf} (h : SendsOnly P c) {t : Tid}
    {sh : SendState} {p : Pc} (hsent : ∀ b ∈ sh.sent, P b) (hp : ∀ b, p.toPush = some b → P b) :
    SendsOnly P (c.set t sh p) where
  sent := hsent
  toPush := SendConf.forall_pc_set (Q := fun p => ∀ b, p.toPush = some b → P b) h.toPush hp

/-- **Only what `Send` is called with is sent.** -/
theorem SendsOnly.step {P : SendBytes → Prop} {k : Mutex.Kind} {c c' : SendConf} {l : Label}
    (hI : SendsOnly P c) (hok : CallsOnly P l) (h : c.next k l = some c') : SendsOnly P c' := by
  cases stepped_of_next h with
  | call t b hidle => exact hI.set hI.sent fun b' hb' => Option.some.inj hb' ▸ hok
  | run t sh p hs =>
      obtain ⟨hpush, hsent⟩ := localStep_toPush hs
      refine hI.set (fun b hb => ?_) fun b hb => hI.toPush t b (hpush b hb)
      rcases hsent b hb with hb | hb
      · exact hI.sent b hb
      · exact hI.toPush t b hb
  | transmit i n buffers hw hn => exact ⟨hI.sent, hI.toPush⟩
  | complete t i n buffers hw hidle => exact hI.set hI.sent fun _ hb => nomatch hb
  | fail i error buffers hw =>
      rw [SendState.handleError_eq]
      exact ⟨hI.sent, hI.toPush⟩
  | disconnect => exact ⟨hI.sent, hI.toPush⟩
  | connect => exact ⟨hI.sent, hI.toPush⟩

/-- **What was transmitted, and what was sent, stays so.** -/
theorem grows_of_next {k : Mutex.Kind} {c c' : SendConf} {l : Label} (h : c.next k l = some c') :
    c.sh.wire <+: c'.sh.wire ∧ c.sh.sent <+: c'.sh.sent := by
  cases stepped_of_next h with
  | run t sh p hs =>
      obtain ⟨hdata, hwire⟩ := localStep_data hs
      refine ⟨hwire ▸ List.prefix_rfl, ?_⟩
      cases hdata with
      | push b _ _ _ hsent _ => exact hsent ▸ List.prefix_append _ _
      | drain _ _ _ _ hsent _ | issue _ _ _ _ hsent _ | leave _ _ hsent _ =>
          exact hsent ▸ List.prefix_rfl
  | transmit i n buffers hw hn => exact ⟨List.prefix_append _ _, List.prefix_rfl⟩
  | fail i error buffers hw =>
      rw [SendState.handleError_eq]
      exact ⟨List.prefix_rfl, List.prefix_rfl⟩
  | _ => exact ⟨List.prefix_rfl, List.prefix_rfl⟩

/-! ## 2. The link -/

/-- A sending session and the pipe to the other end. -/
structure PacketLink where
  sender : SendConf
  pipe : PacketPipe

/-- What happens next: a step at the sender, or a read of `n` bytes completes at the receiver. -/
inductive LinkLabel where
  | send (l : Label)
  | read (n : Nat)
  deriving DecidableEq, Repr

namespace PacketLink

/-- **The step function of the link.** -/
def next (k : Mutex.Kind) (s : PacketLink) : LinkLabel → Option PacketLink
  | .send l => (s.sender.next k l).map fun c =>
      { sender := c, pipe := s.pipe.put [c.sh.wire.drop s.sender.sh.wire.length] }
  | .read n => (s.pipe.read n).map fun r => { s with pipe := r.1 }

/-- Both ends just connected. -/
def start (connected : Bool) : PacketLink := ⟨.fresh connected, .start⟩

/-- Writes transmit all their bytes, and what is sent are packets. -/
def SendsWhole (s : PacketLink) : LinkLabel → Prop
  | .send l => FullWrites s.sender l ∧ CallsOnly WellFormedPacket l
  | .read _ => True

/-- And no error occurs. -/
def SendsWell (s : PacketLink) : LinkLabel → Prop
  | .send l => ErrorFree s.sender l ∧ FullWrites s.sender l ∧ CallsOnly WellFormedPacket l
  | .read _ => True

instance (s : PacketLink) : (l : LinkLabel) → Decidable (s.SendsWell l)
  | .send _ => inferInstanceAs (Decidable (_ ∧ _))
  | .read _ => .isTrue trivial

theorem sendsWhole_of_sendsWell {s : PacketLink} {l : LinkLabel} (h : s.SendsWell l) :
    s.SendsWhole l := by
  cases l with
  | send l => exact h.2
  | read n => trivial

/-- **The link invariant.** -/
structure LinkInv (s : PacketLink) : Prop where
  token : TokenInv s.sender
  stream : ∃ mid, StreamInv s.sender 0 mid
  packets : SendsOnly WellFormedPacket s.sender
  recv : s.pipe.receiver.RecvInv
  account : s.pipe.delivered.flatten ++ s.pipe.unread ++ s.pipe.onWay = s.sender.sh.wire
  order : s.pipe.delivered <+: s.sender.sh.sent

theorem linkInv_start (connected : Bool) : LinkInv (start connected) where
  token := tokenInv_fresh connected
  stream := ⟨[], streamInv_fresh connected⟩
  packets := sendsOnly_fresh _ connected
  recv := PacketPipe.holds_start.recv
  account := by
    have hun : PacketPipe.start.unread = [] := RecvBuffer.unread_new _
    show PacketPipe.start.delivered.flatten ++ PacketPipe.start.unread ++ [] = []
    rw [hun]
    rfl
  order := List.prefix_rfl

section Step

variable {k : Mutex.Kind} {s s' : PacketLink}

theorem LinkInv.send (hI : LinkInv s) {l : Label} (hfull : FullWrites s.sender l)
    (hcalls : CallsOnly WellFormedPacket l) (h : s.next k (.send l) = some s') : LinkInv s' := by
  obtain ⟨c, hc, rfl⟩ := Option.map_eq_some_iff.mp h
  obtain ⟨⟨new, hnew⟩, hsent⟩ := grows_of_next hc
  obtain ⟨mid, hS⟩ := hI.stream
  have hS' := hS.step hI.token hc
  rw [loses_of_fullWrites hfull] at hS'
  refine ⟨hI.token.step hc, hS', hI.packets.step hcalls hc, hI.recv, ?_, hI.order.trans hsent⟩
  show s.pipe.delivered.flatten ++ s.pipe.unread ++
    (s.pipe.onWay ++ [c.sh.wire.drop s.sender.sh.wire.length].flatten) = c.sh.wire
  rw [← List.append_assoc, hI.account, List.flatten_singleton, ← hnew, List.drop_left]

/-- The packets sent and not delivered yet are what the pipe holds; the bytes of them that are not
    on the way are in flight or queued. -/
theorem LinkInv.holds (hI : LinkInv s) {mid : List UInt8} (hS : StreamInv s.sender 0 mid) :
    ∃ later, s.sender.sh.sent = s.pipe.delivered ++ later ∧
      s.pipe.Holds (mid ++ s.sender.sh.sendQueue.flatten) later := by
  obtain ⟨later, hlater⟩ := hI.order
  have hstream := hS.stream rfl
  rw [← hI.account, ← hlater, List.flatten_append] at hstream
  simp only [List.append_assoc] at hstream
  refine ⟨later, hlater.symm, hI.recv, ?_, fun q hq =>
    hI.packets.sent q (hlater ▸ List.mem_append_right _ hq)⟩
  rw [List.append_assoc]
  exact List.append_cancel_left hstream

/-- **A read that fits goes through**, and keeps the invariant. -/
theorem LinkInv.read (hI : LinkInv s) {n : Nat} (hn : s.pipe.ReadFits n) :
    ∃ r calls, s.pipe.read n = some (⟨s.pipe.onWay.drop n, r⟩, calls) ∧
      LinkInv { s with pipe := ⟨s.pipe.onWay.drop n, r⟩ } := by
  obtain ⟨mid, hS⟩ := hI.stream
  obtain ⟨later, hsent, hH⟩ := hI.holds hS
  obtain ⟨r, calls, ps, later', hread, rfl, -, -, hdel, hH'⟩ := hH.read hn
  refine ⟨r, calls, hread, hI.token, ⟨mid, hS⟩, hI.packets, hH'.recv, ?_, later', ?_⟩
  · -- the account of the bytes is the stream less what is not on the way
    have hstream := hS.stream rfl
    rw [hsent, ← List.append_assoc, List.flatten_append, List.flatten_append,
      ← hH'.stream] at hstream
    show r.delivered.flatten ++ r.recvBuffer.unread ++ s.pipe.onWay.drop n = s.sender.sh.wire
    rw [hdel, List.flatten_append]
    simp only [← List.append_assoc] at hstream
    exact (List.append_cancel_right (List.append_cancel_right hstream)).symm
  · show r.delivered ++ later' = s.sender.sh.sent
    rw [hdel, List.append_assoc, hsent]

/-- **A step keeps the invariant.** -/
theorem LinkInv.step (hI : LinkInv s) {l : LinkLabel} (hok : s.SendsWhole l)
    (h : s.next k l = some s') : LinkInv s' := by
  cases l with
  | send l => exact hI.send hok.1 hok.2 h
  | read n =>
      obtain ⟨⟨r, calls⟩, hread, rfl⟩ := Option.map_eq_some_iff.mp h
      obtain ⟨r', calls', hread', hI'⟩ := hI.read (PacketPipe.readFits_of_read hread)
      rw [hread] at hread'
      cases hread'
      exact hI'

theorem LinkInv.of_reach {connected : Bool} (hr : Reach (next k) SendsWhole (start connected) s) :
    LinkInv s :=
  hr.invariant (linkInv_start connected) fun _ _ _ hI hok h => hI.step hok h

end Step

/-! ## 3. What arrives -/

/-- **The link carries packets.** -/
structure Carries (k : Mutex.Kind) (s : PacketLink) : Prop where
  /-- what was delivered are the first packets sent, in their order and once each -/
  order : s.pipe.delivered <+: s.sender.sh.sent
  /-- no byte is lost, doubled or moved -/
  account : s.pipe.delivered.flatten ++ s.pipe.unread ++ s.pipe.onWay = s.sender.sh.wire
  /-- the receiver is there for the next read, of whatever size -/
  connected : s.pipe.receiver.connected = true
  reads : ∀ n, 1 ≤ n → n ≤ s.pipe.onWay.length → (n : Int) ≤ Session.bufferSize →
    ∃ r, s.next k (.read n) = some { s with pipe := ⟨s.pipe.onWay.drop n, r⟩ }
  /-- with nothing left on the way all packets are delivered -/
  all : ¬ InFlight s.sender → s.sender.sh.sendQueue = [] → s.pipe.onWay = [] →
    s.pipe.delivered = s.sender.sh.sent ∧ s.pipe.unread = []

theorem LinkInv.carries (k : Mutex.Kind) {s : PacketLink} (hI : LinkInv s) : s.Carries k where
  order := hI.order
  account := hI.account
  connected := hI.recv.connected
  reads n h1 hle hsize := by
    obtain ⟨r, calls, hr, -⟩ := hI.read ⟨h1, hle, Int.le_trans hsize hI.recv.free⟩
    refine ⟨r, ?_⟩
    rw [next, hr]
    rfl
  all hfl hq hway := by
    obtain ⟨mid, hS⟩ := hI.stream
    obtain ⟨later, hsent, hH⟩ := hI.holds hS
    rw [hS.mid_of_not_inFlight hfl, hq] at hH
    obtain ⟨rfl, hun⟩ := hH.nil_of_empty hway
    exact ⟨by rw [hsent, List.append_nil], hun⟩

/-- Every thread has returned, every write is handled, and nothing is on the way. -/
def AtRest (s : PacketLink) : Prop :=
  (∀ t, s.sender.pc t = .idle) ∧ s.sender.sh.writes = [] ∧ s.pipe.onWay = []

/-- The sender's part of a run. -/
theorem reach_sender {k : Mutex.Kind} {connected : Bool} {s : PacketLink}
    (hr : Reach (next k) SendsWell (start connected) s) :
    Reach (SendConf.next k) ErrorFree (.fresh connected) s.sender := by
  induction hr with
  | start => exact .start
  | step s s' l _ hok h ih =>
      cases l with
      | send l =>
          obtain ⟨c, hc, rfl⟩ := Option.map_eq_some_iff.mp h
          exact .step _ _ l ih hok.1 hc
      | read n =>
          obtain ⟨r, -, rfl⟩ := Option.map_eq_some_iff.mp h
          exact ih

/-- At rest without errors the queue is empty: somebody would have to serve it. -/
theorem sendQueue_of_atRest {c : SendConf} (hI : FlowInv c) (hidle : ∀ t, c.pc t = .idle)
    (hw : c.sh.writes = []) : c.sh.sendQueue = [] := by
  by_contra hq
  rcases hI.served (k := .plain) hq fun t => by rw [hidle t]; rfl with h | ⟨t, hin, -⟩
  · exact h hw
  · rw [hidle t] at hin
    cases hin

/-- **Without errors all packets are delivered** once the link is at rest. -/
theorem delivered_of_atRest {k : Mutex.Kind} {s : PacketLink}
    (hr : Reach (next k) SendsWell (start true) s) (hrest : s.AtRest) :
    s.pipe.delivered = s.sender.sh.sent ∧ s.pipe.unread = [] := by
  obtain ⟨hidle, hw, hway⟩ := hrest
  have hI := LinkInv.of_reach (hr.mono (fun _ _ h => sendsWhole_of_sendsWell h) fun _ _ _ h => h)
  refine (hI.carries k).all ?_ (sendQueue_of_atRest (.of_reach (reach_sender hr)) hidle hw) hway
  rintro (⟨w, hmem, -⟩ | ⟨t, hb⟩)
  · rw [hw] at hmem
    cases hmem
  · rw [hidle t] at hb
    exact hb rfl

/-- **Packets over a link.** Whatever the threads of the sender, the writes and the reads do and in
    whatever order, where writes transmit all their bytes the link carries packets. Without errors
    every packet sent is delivered once the link is at rest. -/
theorem packet_link (k : Mutex.Kind) :
    (∀ connected s, Reach (next k) SendsWhole (start connected) s → s.Carries k) ∧
    (∀ s, Reach (next k) SendsWell (start true) s → s.AtRest →
      s.pipe.delivered = s.sender.sh.sent ∧ s.pipe.unread = []) :=
  ⟨fun _ _ hr => (LinkInv.of_reach hr).carries k, fun _ => delivered_of_atRest⟩

/-- A packet is sent and its write handled; it arrives in two reads, the first of them inside the
    size field. -/
theorem packet_link_two_reads :
    ∃ s, Reach (next .plain) SendsWell (start true) s ∧ s.AtRest ∧
      s.pipe.delivered = [[5, 0, 1, 0, 9]] ∧ s.pipe.unread = [] := by
  have hcarries := fun s hr => (packet_link .plain).1 true s
    (Reach.mono (fun _ _ h => sendsWhole_of_sendsWell h) (fun _ _ _ h => h) hr)
  obtain ⟨s, hs, hidle, hw, hway, hdata⟩ : ∃ s, exec (next .plain) SendsWell (start true)
      ((sendRun 0 [5, 0, 1, 0, 9] 10 ++ completionRun 0 5 5).map .send) = some s ∧
      (∀ t, s.sender.pc t = .idle) ∧ s.sender.sh.writes = [] ∧
      s.pipe.onWay = [5, 0, 1, 0, 9] ∧ s.sender.sh.sent = [[5, 0, 1, 0, 9]] := by
    refine ⟨_, rfl, fun t => ?_, rfl, rfl, rfl⟩
    cases t <;> rfl
  have hsent := Reach.of_exec _ hs
  obtain ⟨r₁, h₁⟩ := (hcarries _ hsent).reads 1 (by decide) (by rw [hway]; decide) (by decide)
  have hread := Reach.step _ _ (LinkLabel.read 1) hsent trivial h₁
  obtain ⟨r₂, h₂⟩ := (hcarries _ hread).reads 4 (by decide) (by rw [hway]; exact Nat.le_refl 4)
    (by decide)
  have hall := Reach.step _ _ (LinkLabel.read 4) hread trivial h₂
  have hrest : AtRest { s with pipe := ⟨(s.pipe.onWay.drop 1).drop 4, r₂⟩ } :=
    ⟨hidle, hw, by rw [hway]; rfl⟩
  obtain ⟨hdel, hun⟩ := (packet_link .plain).2 _ hall hrest
  exact ⟨_, hall, hrest, hdel.trans hdata, hun⟩

/-! ## 4. The link as a pipe -/

/-- **The link, seen as a pipe**: the receiver is the same, and the pipe holds the packets that were
    sent and not delivered, all of them whole. -/
structure Abstracts (s : PacketLink) (p : PacketPipe) : Prop where
  receiver : p.receiver = s.pipe.receiver
  holds : ∃ later, s.sender.sh.sent = p.delivered ++ later ∧ p.Holds [] later

/-- What is on the way of the link is on the way of the pipe. -/
theorem Abstracts.onWay {s : PacketLink} {p : PacketPipe} (h : s.Abstracts p) (hI : LinkInv s) :
    s.pipe.onWay <+: p.onWay := by
  obtain ⟨later, hsent, hH⟩ := h.holds
  obtain ⟨mid, hS⟩ := hI.stream
  obtain ⟨later', hsent', hH'⟩ := hI.holds hS
  have hdel : p.delivered = s.pipe.delivered := congrArg RecvSession.delivered h.receiver
  have hun : p.unread = s.pipe.unread := congrArg (·.recvBuffer.unread) h.receiver
  obtain rfl : later = later' := by
    rw [hsent', hdel] at hsent
    exact (List.append_cancel_left hsent).symm
  have hstream := hH'.stream.trans hH.stream.symm
  rw [hun, List.append_nil, List.append_assoc] at hstream
  exact ⟨_, List.append_cancel_left hstream⟩

/-- What a step of the sender adds to the packets sent. -/
theorem sent_of_next {k : Mutex.Kind} {c c' : SendConf} {l : Label} (h : c.next k l = some c') :
    c'.sh.sent = c.sh.sent ∨ ∃ t b, c.pc t = .sendPush b ∧ c'.sh.sent = c.sh.sent ++ [b] := by
  cases stepped_of_next h with
  | run t sh p hs =>
      cases (localStep_data hs).1 with
      | push b hp _ _ hsent _ => exact .inr ⟨t, b, hp, hsent⟩
      | drain _ _ _ _ hsent _ | issue _ _ _ _ hsent _ | leave _ _ hsent _ => exact .inl hsent
  | fail i error buffers hw =>
      rw [SendState.handleError_eq]
      exact .inl rfl
  | _ => exact .inl rfl

/-- A packet is put on the pipe. -/
def PutsPackets (_ : PacketPipe) : PipeStep → Prop
  | .put packet => WellFormedPacket packet
  | .read _ => True

/-- **A link is a pipe.** For the receiver every run whose writes transmit all their bytes is a run
    of a pipe on which each packet is put whole when it is pushed to the queue. -/
theorem packet_link_refines_pipe (k : Mutex.Kind) (connected : Bool) (s : PacketLink)
    (hr : Reach (next k) SendsWhole (start connected) s) :
    ∃ p, Reach PacketPipe.next PutsPackets .start p ∧ s.Abstracts p := by
  induction hr with
  | start => exact ⟨.start, .start, rfl, [], rfl, PacketPipe.holds_start⟩
  | step s s' l hr hok h ih =>
      obtain ⟨p, hp, habs⟩ := ih
      have hI := LinkInv.of_reach hr
      obtain ⟨later, hsent, hH⟩ := habs.holds
      cases l with
      | send l =>
          obtain ⟨c, hc, rfl⟩ := Option.map_eq_some_iff.mp h
          rcases sent_of_next hc with hsame | ⟨t, b, hpush, hnew⟩
          · exact ⟨p, hp, habs.receiver, later, hsame.trans hsent, hH⟩
          · -- the push is where the pipe gets the packet
            have hb : WellFormedPacket b := hI.packets.toPush t b (by rw [hpush]; rfl)
            refine ⟨p.put [b], .step _ _ (.put b) hp hb rfl, habs.receiver, later ++ [b], ?_,
              hH.put fun q hq => List.mem_singleton.mp hq ▸ hb⟩
            show c.sh.sent = p.delivered ++ (later ++ [b])
            rw [hnew, hsent, List.append_assoc]
      | read n =>
          obtain ⟨⟨q, calls⟩, hread, rfl⟩ := Option.map_eq_some_iff.mp h
          obtain ⟨q', hread', hq'⟩ := PacketPipe.read_of_prefix habs.receiver (habs.onWay hI) hread
          obtain ⟨later', rfl, -, hdel, hH'⟩ := hH.taken hread'
          refine ⟨_, .step _ _ (.read n) hp trivial ?_, hq', later', ?_, hH'⟩
          · rw [PacketPipe.next, hread']
            rfl
          · show s.sender.sh.sent = q'.delivered ++ later'
            rw [hdel, hsent, List.append_assoc]

/-- A packet that is pushed and not written yet: nothing is on the way of the link, and all of it on
    that of the pipe. -/
theorem packet_link_refines_pipe_pushed :
    ∃ s p, Reach (next .plain) SendsWell (start true) s ∧ s.pipe.onWay = [] ∧
      Reach PacketPipe.next PutsPackets .start p ∧ s.Abstracts p ∧ p.onWay = [5, 0, 1, 0, 9] := by
  obtain ⟨s, hs, hway, hdel, hdata⟩ : ∃ s, exec (next .plain) SendsWell (start true)
      ((sendRun 0 [5, 0, 1, 0, 9] 3).map .send) = some s ∧ s.pipe = .start ∧
      s.pipe.delivered = [] ∧ s.sender.sh.sent = [[5, 0, 1, 0, 9]] := ⟨_, rfl, rfl, rfl, rfl⟩
  have hr := Reach.of_exec _ hs
  obtain ⟨p, hp, habs⟩ := packet_link_refines_pipe .plain true s
    (hr.mono (fun _ _ h => sendsWhole_of_sendsWell h) fun _ _ _ h => h)
  refine ⟨s, p, hr, hway ▸ rfl, hp, habs, ?_⟩
  obtain ⟨later, hsent, hH⟩ := habs.holds
  have hun : p.unread = [] := by
    rw [PacketPipe.unread, habs.receiver, hway]
    exact RecvBuffer.unread_new _
  have hstream := hH.stream
  rw [hdata, show p.delivered = [] from (congrArg _ habs.receiver).trans hdel] at hsent
  rw [hun, ← List.nil_append later, ← hsent, List.append_nil] at hstream
  exact hstream

end PacketLink

end ServerCore
