/-
  File:      ServerCore/SessionMachine.lean
  Subject:   A Session object over the connections it is used for (Session.cpp): Connect,
             ProcessConnect and Disconnect, with the send path and the receive path between them.

  The send path is the machine of SendMachine.lean. Beside it a thread can be inside the receive
  code: in the handler of `RegisterRecv`, or in `ProcessConnect`; `RecvPc` is its next action
  there. `OnRecv` takes one action for each pass of its loop, so a loop that never ends is a run
  that never ends. `OnRecvPacket` and `OnConnected` are code of the user and may call `Send`: a
  thread in the receive code can be in the send code too, and goes on with the former when it is
  back from the latter.

  `Disconnect` closes the socket, and asio completes later what is outstanding then, with
  `operation_aborted`; what had completed before keeps its result. When `ProcessConnect` begins the
  next connection, the operations whose handlers have not run yet are kept apart (`lateReads`,
  `lateWrites`): their handlers run the code of the session as any others.

  Two threads are inside the receive code at once only where handlers of two connections overlap;
  their accesses to `_recvBuffer` then interleave by actions.
-/
import ServerCore.PacketLoop
import ServerCore.RecvBuffer
import ServerCore.Reassembly
import ServerCore.SendMachine

namespace ServerCore

open Trans

/-! ## 1. States -/

/-- An `async_read_some` whose handler has not run: the address it stores to, the room it was
    given, and the count its handler will get once it has stored. -/
structure Read where
  pos : Nat
  room : Nat
  transferred : Option Nat
  deriving DecidableEq, Repr

/-- The next action of a thread in the receive code. -/
inductive RecvPc where
  | idle
  /-- `OnRecv(buffer, len)`, at the head of its loop -/
  | onRecv (buffer len processLen : Nat)
  /-- the handler, where `OnRecv` has returned `processLen` -/
  | onRead (dataSize processLen : Nat)
  /-- `RegisterRecv()` -/
  | registerRecv
  deriving DecidableEq, Repr

/-- A session. `calls` are the calls of `OnRecvPacket`, and `send.sh.wire` the bytes written, since
    the last `ProcessConnect`; `connecting`: an `async_connect` is outstanding. -/
structure SessionConf where
  send : SendConf
  recvBuffer : RecvBuffer
  reads : List Read
  rpc : Tid → RecvPc
  connecting : Bool
  lateReads : List Read
  lateWrites : List Write
  calls : List RecvCall

/-- What happens to a session next. -/
inductive SessionLabel where
  /-- a step of the send machine -/
  | send (l : Label)
  /-- `Connect()` -/
  | connect
  /-- the `async_connect` succeeds: `ProcessConnect()` on thread `t`, up to `OnConnected` -/
  | processConnect (t : Tid)
  /-- the read `i` stores these bytes and completes successfully -/
  | arrive (i : Nat) (bytes : List UInt8)
  /-- the handler of the completed read `i` starts on thread `t` -/
  | handle (t : Tid) (i : Nat)
  /-- the read `i` fails; its handler runs `Disconnect("RegisterRecv Error")` -/
  | readFails (i : Nat)
  /-- thread `t` takes its next action in the receive code -/
  | receive (t : Tid)
  /-- the handler of a read of an earlier connection starts: the read had completed -/
  | lateHandle (t : Tid) (i : Nat)
  /-- the handler of a read of an earlier connection runs: it was aborted -/
  | lateReadFails (i : Nat)
  /-- the handler of a write of an earlier connection starts: the write had completed -/
  | lateComplete (t : Tid) (i : Nat)
  /-- the handler of a write of an earlier connection runs: it was aborted -/
  | lateWriteFails (i : Nat)
  deriving DecidableEq, Repr

namespace SessionConf

/-- `IsConnected()` -/
def connected (s : SessionConf) : Bool := s.send.sh.connected

/-- A session just constructed. -/
def fresh : SessionConf where
  send := .fresh false
  recvBuffer := RecvBuffer.new Session.bufferSize
  reads := []
  rpc := fun _ => .idle
  connecting := false
  lateReads := []
  lateWrites := []
  calls := []

/-- Thread `t` is outside the session's code. -/
def Idle (s : SessionConf) (t : Tid) : Prop := s.send.pc t = .idle ∧ s.rpc t = .idle

instance (s : SessionConf) (t : Tid) : Decidable (s.Idle t) := inferInstanceAs (Decidable (_ ∧ _))

/-- Thread `t` comes to `p` in the receive code. -/
def setRecv (s : SessionConf) (t : Tid) (p : RecvPc) : SessionConf :=
  { s with rpc := Function.update s.rpc t p }

/-! ## 2. Steps -/

/-- `Disconnect(cause)`; a second one changes nothing. -/
def disconnect (s : SessionConf) : SessionConf :=
  { s with send := { s.send with sh := { s.send.sh with connected := false } } }

/-- `Connect()`: refused while the session is connected. -/
def connect (s : SessionConf) : SessionConf :=
  if s.connected then s else { s with connecting := true }

/-- `ProcessConnect()` on thread `t`, up to its `RegisterRecv`. -/
def processConnect (s : SessionConf) (t : Tid) : SessionConf :=
  setRecv
    { s with
      send := { s.send with
        sh := { s.send.sh with connected := true, writes := [], wire := [], sent := [] } }
      reads := []
      connecting := false
      lateReads := s.lateReads ++ s.reads
      lateWrites := s.lateWrites ++ s.send.sh.writes
      calls := [] } t .registerRecv

/-- A step of the send path. Nothing is transmitted on a closed socket, and a handler starts on a
    thread that is in no other handler. -/
def sendStep (s : SessionConf) (l : Label) : Option SessionConf :=
  let run := (s.send.next .plain l).map fun c => { s with send := c }
  match l with
  | .connect => none
  | .transmit _ _ => if s.connected then run else none
  | .complete t _ => if s.rpc t = .idle then run else none
  | _ => run

/-- The handler of a read that completed with `bytesTransferred`, up to `OnRecv`. -/
def onReadSome (s : SessionConf) (t : Tid) (bytesTransferred : Nat) : SessionConf :=
  match s.recvBuffer.onWrite bytesTransferred with
  | (false, _) => s
  | (true, rb) =>
      setRecv { s with recvBuffer := rb } t (.onRecv rb.readPos.toNat rb.dataSize.toNat 0)

/-- **One action of the receive code.** A `processLen` is never negative here. -/
def receiveStep (s : SessionConf) (t : Tid) : RecvPc → Option SessionConf
  | .idle => none
  | .onRecv buffer len processLen =>
      let mem := s.recvBuffer.buffer.drop buffer
      match PacketSession.pass mem len processLen with
      | none => some (s.setRecv t (.onRead len processLen))
      | some next =>
          some (setRecv { s with calls := s.calls ++ [⟨mem.drop processLen, next - processLen⟩] } t
            (.onRecv buffer len next))
  | .onRead dataSize processLen =>
      if dataSize < processLen then some (s.disconnect.setRecv t .idle)
      else
        match s.recvBuffer.onRead processLen with
        | (false, _) => some (s.disconnect.setRecv t .idle)
        | (true, rb) => rb.clean.map fun rb => setRecv { s with recvBuffer := rb } t .registerRecv
  | .registerRecv =>
      let read := ⟨s.recvBuffer.writePos.toNat, s.recvBuffer.freeSize.toNat, none⟩
      some (setRecv { s with reads := if s.connected then s.reads ++ [read] else s.reads } t .idle)

/-- **The step function of a session.** -/
def next (s : SessionConf) : SessionLabel → Option SessionConf
  | .send l => s.sendStep l
  | .connect => some s.connect
  | .processConnect t =>
      if s.connecting = true ∧ s.Idle t then some (s.processConnect t) else none
  | .arrive i bytes =>
      match s.reads[i]? with
      | some ⟨pos, room, none⟩ =>
          if s.connected = true ∧ 1 ≤ bytes.length ∧ bytes.length ≤ room then
            some { s with
              recvBuffer := s.recvBuffer.store pos bytes
              reads := s.reads.set i ⟨pos, room, some bytes.length⟩ }
          else none
      | _ => none
  | .handle t i =>
      match s.reads[i]? with
      | some ⟨_, _, some n⟩ =>
          if s.Idle t then some (onReadSome { s with reads := s.reads.eraseIdx i } t n) else none
      | _ => none
  | .readFails i =>
      match s.reads[i]? with
      | some ⟨_, _, none⟩ => some (disconnect { s with reads := s.reads.eraseIdx i })
      | _ => none
  | .receive t => if s.send.pc t = .idle then s.receiveStep t (s.rpc t) else none
  | .lateHandle t i =>
      match s.lateReads[i]? with
      | some ⟨_, _, some n⟩ =>
          if s.Idle t then some (onReadSome { s with lateReads := s.lateReads.eraseIdx i } t n)
          else none
      | _ => none
  | .lateReadFails i =>
      match s.lateReads[i]? with
      | some ⟨_, _, none⟩ => some (disconnect { s with lateReads := s.lateReads.eraseIdx i })
      | _ => none
  | .lateComplete t i =>
      match s.lateWrites[i]? with
      | some ⟨_, some n⟩ =>
          if s.Idle t then
            some { s with
              lateWrites := s.lateWrites.eraseIdx i
              send := s.send.set t s.send.sh (.procCheck n) }
          else none
      | _ => none
  | .lateWriteFails i =>
      match s.lateWrites[i]? with
      | some ⟨_, none⟩ =>
          some { s with
            lateWrites := s.lateWrites.eraseIdx i
            send := { s.send with sh := s.send.sh.handleError .operationAborted } }
      | _ => none

/-- **What a step can do**, one case for each rule. -/
inductive Stepped (s : SessionConf) : SessionLabel → SessionConf → Prop where
  | send (l : Label) (c : SendConf) (hl : l ≠ .connect) (h : s.send.next .plain l = some c) :
      Stepped s (.send l) { s with send := c }
  | connect : Stepped s .connect s.connect
  | processConnect (t : Tid) (hc : s.connecting = true) (ht : s.Idle t) :
      Stepped s (.processConnect t) (s.processConnect t)
  | arrive (i pos room : Nat) (bytes : List UInt8) (hr : s.reads[i]? = some ⟨pos, room, none⟩)
      (hpos : 1 ≤ bytes.length) (hroom : bytes.length ≤ room) :
      Stepped s (.arrive i bytes) { s with
        recvBuffer := s.recvBuffer.store pos bytes
        reads := s.reads.set i ⟨pos, room, some bytes.length⟩ }
  | handle (t : Tid) (i pos room n : Nat) (hr : s.reads[i]? = some ⟨pos, room, some n⟩)
      (ht : s.Idle t) :
      Stepped s (.handle t i) (onReadSome { s with reads := s.reads.eraseIdx i } t n)
  | readFails (i pos room : Nat) (hr : s.reads[i]? = some ⟨pos, room, none⟩) :
      Stepped s (.readFails i) (disconnect { s with reads := s.reads.eraseIdx i })
  | receive (t : Tid) (s' : SessionConf) (h : s.receiveStep t (s.rpc t) = some s') :
      Stepped s (.receive t) s'
  | lateHandle (t : Tid) (i pos room n : Nat) (hr : s.lateReads[i]? = some ⟨pos, room, some n⟩)
      (ht : s.Idle t) :
      Stepped s (.lateHandle t i) (onReadSome { s with lateReads := s.lateReads.eraseIdx i } t n)
  | lateReadFails (i pos room : Nat) (hr : s.lateReads[i]? = some ⟨pos, room, none⟩) :
      Stepped s (.lateReadFails i) (disconnect { s with lateReads := s.lateReads.eraseIdx i })
  | lateComplete (t : Tid) (i n : Nat) (buffers : List SendBytes)
      (hw : s.lateWrites[i]? = some ⟨buffers, some n⟩) (ht : s.Idle t) :
      Stepped s (.lateComplete t i) { s with
        lateWrites := s.lateWrites.eraseIdx i
        send := s.send.set t s.send.sh (.procCheck n) }
  | lateWriteFails (i : Nat) (buffers : List SendBytes)
      (hw : s.lateWrites[i]? = some ⟨buffers, none⟩) :
      Stepped s (.lateWriteFails i) { s with
        lateWrites := s.lateWrites.eraseIdx i
        send := { s.send with sh := s.send.sh.handleError .operationAborted } }

theorem stepped_of_sendStep {s s' : SessionConf} {l : Label} (h : s.sendStep l = some s') :
    Stepped s (.send l) s' := by
  have hrun : l ≠ .connect → ((s.send.next .plain l).map fun c => { s with send := c }) = some s' →
      Stepped s (.send l) s' := by
    intro hl h
    obtain ⟨c, hc, rfl⟩ := Option.map_eq_some_iff.mp h
    exact .send l c hl hc
  unfold sendStep at h
  cases l with
  | connect => cases h
  | transmit i n =>
      simp only at h
      split at h
      · exact hrun (by simp) h
      · cases h
  | complete t i =>
      simp only at h
      split at h
      · exact hrun (by simp) h
      · cases h
  | call t b => exact hrun (by simp) h
  | run t => exact hrun (by simp) h
  | fail i error => exact hrun (by simp) h
  | disconnect => exact hrun (by simp) h

theorem stepped_of_next {s s' : SessionConf} {l : SessionLabel} (h : s.next l = some s') :
    Stepped s l s' := by
  cases l with
  | send l => exact stepped_of_sendStep h
  | connect =>
      cases h
      exact .connect
  | processConnect t =>
      simp only [next] at h
      split at h
      · rename_i hc
        cases h
        exact .processConnect t hc.1 hc.2
      · cases h
  | arrive i bytes =>
      simp only [next] at h
      split at h
      · rename_i pos room hr
        split at h
        · rename_i hc
          cases h
          exact .arrive i pos room bytes hr hc.2.1 hc.2.2
        · cases h
      · cases h
  | handle t i =>
      simp only [next] at h
      split at h
      · rename_i pos room n hr
        split at h
        · rename_i ht
          cases h
          exact .handle t i pos room n hr ht
        · cases h
      · cases h
  | readFails i =>
      simp only [next] at h
      split at h
      · rename_i pos room hr
        cases h
        exact .readFails i pos room hr
      · cases h
  | receive t =>
      simp only [next] at h
      split at h
      · exact .receive t s' h
      · cases h
  | lateHandle t i =>
      simp only [next] at h
      split at h
      · rename_i pos room n hr
        split at h
        · rename_i ht
          cases h
          exact .lateHandle t i pos room n hr ht
        · cases h
      · cases h
  | lateReadFails i =>
      simp only [next] at h
      split at h
      · rename_i pos room hr
        cases h
        exact .lateReadFails i pos room hr
      · cases h
  | lateComplete t i =>
      simp only [next] at h
      split at h
      · rename_i buffers n hw
        split at h
        · rename_i ht
          cases h
          exact .lateComplete t i n buffers hw ht
        · cases h
      · cases h
  | lateWriteFails i =>
      simp only [next] at h
      split at h
      · rename_i buffers hw
        cases h
        exact .lateWriteFails i buffers hw
      · cases h

/-- What the session has done on its connection: the packets delivered and the bytes written. -/
structure Output where
  delivered : List (List UInt8)
  written : List UInt8
  deriving DecidableEq, Repr

def output (s : SessionConf) : Output := ⟨s.calls.map RecvCall.packet, s.send.sh.wire⟩

end SessionConf

end ServerCore
