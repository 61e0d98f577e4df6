/-
  File:      ServerCore/SendMachine.lean
  Subject:   The send path of a Session (Session.cpp) as a machine of threads: Send,
             RegisterSend, ProcessSend, the write completion handler and HandleError.

  Any number of threads run the code of one session. A thread's program counter `Pc` names its
  next atomic action: one access of an atomic, one acquisition or release of `_sendLock`, or one
  access of `_sendQueue` under it; `localStep` is that action. `RegisterSend` is called from
  `Send`, which holds no lock, and from `ProcessSend`, which holds `_sendLock`; its counter
  remembers the caller.

  The environment: a write handed to `async_write_some` stays in `writes` until its handler runs.
  It may transmit any number of its bytes and complete with that count (`transmit`, `complete`),
  or fail with any error code (`fail`). Other code of the session may disconnect it and a later
  `ProcessConnect` connect it (again).

  `_sendLock` is a `std::mutex`; the machine takes the kind of mutex as a parameter so that its
  runs can also be read with the nested acquisition granted.
-/
import ServerCore.Lib.Mutex
import ServerCore.Lib.Trans

namespace ServerCore

/-! ## 1. States -/

/-- A thread. -/
abbrev Tid := Nat

/-- A closed SendBuffer: its bytes `[Buffer(), Buffer() + WriteSize())`. -/
abbrev SendBytes := List UInt8

/-- The error codes a completion handler receives; `other` is every code not named. -/
inductive ErrorCode where
  | operationAborted
  | connectionReset
  | connectionAborted
  | brokenPipe
  | timedOut
  | other (value : Nat)
  deriving DecidableEq, Repr

/-- The test of `HandleError`: the codes that disconnect the session. -/
def ErrorCode.disconnects (error : ErrorCode) : Bool :=
  error == .operationAborted || error == .connectionReset || error == .connectionAborted

/-- Who called `RegisterSend`. -/
inductive Caller where
  | send
  | processSend
  deriving DecidableEq, Repr

/-- The next atomic action of a thread. -/
inductive Pc where
  | idle
  /-- `Send`: `if (!IsConnected()) return;` -/
  | sendCheck (b : SendBytes)
  /-- `Send`: `lock_guard lock(_sendLock);` -/
  | sendAcquire (b : SendBytes)
  /-- `Send`: `_sendQueue.push(sendBuffer);` -/
  | sendPush (b : SendBytes)
  /-- `Send`: `_sendRegistered.exchange(true)` -/
  | sendExchange
  /-- `Send`: end of the lock's scope, then `if (registerSend) RegisterSend();` -/
  | sendRelease (registerSend : Bool)
  /-- `RegisterSend`: `if (!IsConnected()) return;` -/
  | regCheck (c : Caller)
  /-- `RegisterSend`: `lock_guard lock(_sendLock);` -/
  | regAcquire (c : Caller)
  /-- `RegisterSend`: the loop that moves `_sendQueue` into `sendBuffers` -/
  | regDrain (c : Caller)
  /-- `RegisterSend`: end of the lock's scope, then `if (sendBuffers.empty())` -/
  | regRelease (c : Caller) (sendBuffers : List SendBytes)
  /-- `RegisterSend`: `_sendRegistered.store(false); return;` -/
  | regClear (c : Caller)
  /-- `RegisterSend`: `_socket.async_write_some(sendBuffers, ..)` -/
  | regIssue (c : Caller) (sendBuffers : List SendBytes)
  /-- `ProcessSend`: `if (!IsConnected()) return;`, then the test of `bytesTransferred` -/
  | procCheck (bytesTransferred : Nat)
  /-- `ProcessSend`: `Disconnect("Send bytesTransferred is 0")` -/
  | procDisconnect
  /-- `ProcessSend`: `lock_guard lock(_sendLock);` -/
  | procAcquire
  /-- `ProcessSend`: `if (_sendQueue.empty())` -/
  | procTest
  /-- `ProcessSend`: `_sendRegistered.store(false);` -/
  | procClear
  /-- `ProcessSend`: end of the lock's scope -/
  | procRelease
  deriving DecidableEq, Repr

/-- A write handed to asio: the gathered buffers, and the count its handler will get once it has
    transmitted. -/
structure Write where
  buffers : List SendBytes
  transferred : Option Nat
  deriving DecidableEq, Repr

/-- What the threads share. `writes` are the writes whose handler has not run yet, `wire` the
    bytes transmitted, `sent` every buffer ever pushed to `_sendQueue`, in queue order. -/
structure SendState where
  connected : Bool
  sendQueue : List SendBytes
  sendRegistered : Bool
  sendLock : Mutex.State Tid
  writes : List Write
  wire : List UInt8
  sent : List SendBytes

/-- A configuration: the shared state and every thread's counter. -/
structure SendConf where
  sh : SendState
  pc : Tid → Pc

/-- Thread `t` moves to `p`, leaving the shared state `sh`. -/
def SendConf.set (c : SendConf) (t : Tid) (sh : SendState) (p : Pc) : SendConf :=
  ⟨sh, Function.update c.pc t p⟩

@[simp] theorem SendConf.set_sh (c : SendConf) (t : Tid) (sh : SendState) (p : Pc) :
    (c.set t sh p).sh = sh := rfl

@[simp] theorem SendConf.set_pc_self (c : SendConf) (t : Tid) (sh : SendState) (p : Pc) :
    (c.set t sh p).pc t = p := by
  simp [SendConf.set]

theorem SendConf.set_pc_of_ne (c : SendConf) {t u : Tid} (sh : SendState) (p : Pc) (h : u ≠ t) :
    (c.set t sh p).pc u = c.pc u := by
  simp [SendConf.set, h]

/-- A property of every counter is kept when the one that moves has it again. -/
theorem SendConf.forall_pc_set {c : SendConf} {Q : Pc → Prop} (h : ∀ u, Q (c.pc u)) {t : Tid}
    {sh : SendState} {p : Pc} (hp : Q p) (u : Tid) : Q ((c.set t sh p).pc u) := by
  by_cases hu : u = t
  · subst hu
    rw [set_pc_self]
    exact hp
  · rw [set_pc_of_ne c sh p hu]
    exact h u

/-- A session no thread uses yet. -/
def SendConf.fresh (connected : Bool) : SendConf :=
  ⟨⟨connected, [], false, none, [], [], []⟩, fun _ => .idle⟩

/-! ## 2. Steps -/

/-- Where `RegisterSend` returns to. -/
def Caller.return : Caller → Pc
  | .send => .idle
  | .processSend => .procRelease

/-- **One atomic action** of thread `t` at a counter; `none`: nothing to do, or blocked. -/
def localStep (k : Mutex.Kind) (t : Tid) (s : SendState) : Pc → Option (SendState × Pc)
  | .idle => none
  | .sendCheck b => some (s, if s.connected then .sendAcquire b else .idle)
  | .sendAcquire b =>
      (Mutex.acquire k s.sendLock t).map fun m => ({ s with sendLock := m }, .sendPush b)
  | .sendPush b =>
      some ({ s with sendQueue := s.sendQueue ++ [b], sent := s.sent ++ [b] }, .sendExchange)
  | .sendExchange => some ({ s with sendRegistered := true }, .sendRelease (!s.sendRegistered))
  | .sendRelease registerSend =>
      some ({ s with sendLock := Mutex.release s.sendLock },
        if registerSend then .regCheck .send else .idle)
  | .regCheck c => some (s, if s.connected then .regAcquire c else c.return)
  | .regAcquire c =>
      (Mutex.acquire k s.sendLock t).map fun m => ({ s with sendLock := m }, .regDrain c)
  | .regDrain c => some ({ s with sendQueue := [] }, .regRelease c s.sendQueue)
  | .regRelease c sendBuffers =>
      some ({ s with sendLock := Mutex.release s.sendLock },
        if sendBuffers.isEmpty then .regClear c else .regIssue c sendBuffers)
  | .regClear c => some ({ s with sendRegistered := false }, c.return)
  | .regIssue c sendBuffers =>
      some ({ s with writes := s.writes ++ [⟨sendBuffers, none⟩] }, c.return)
  | .procCheck bytesTransferred =>
      some (s, if s.connected then (if bytesTransferred = 0 then .procDisconnect else .procAcquire)
        else .idle)
  | .procDisconnect => some ({ s with connected := false }, .idle)
  | .procAcquire =>
      (Mutex.acquire k s.sendLock t).map fun m => ({ s with sendLock := m }, .procTest)
  | .procTest => some (s, if s.sendQueue.isEmpty then .procClear else .regCheck .processSend)
  | .procClear => some ({ s with sendRegistered := false }, .procRelease)
  | .procRelease => some ({ s with sendLock := Mutex.release s.sendLock }, .idle)

/-- **What one atomic action can do**, one case for each: from where, to which shared state, to
    where. -/
inductive SendAction (k : Mutex.Kind) (t : Tid) (s : SendState) : Pc → SendState → Pc → Prop
  where
  | send (b : SendBytes) (hc : s.connected = true) :
      SendAction k t s (.sendCheck b) s (.sendAcquire b)
  | sendDead (b : SendBytes) (hc : s.connected = false) :
      SendAction k t s (.sendCheck b) s .idle
  | sendAcquire (b : SendBytes) (m : Mutex.State Tid)
      (hm : Mutex.acquire k s.sendLock t = some m) :
      SendAction k t s (.sendAcquire b) { s with sendLock := m } (.sendPush b)
  | push (b : SendBytes) :
      SendAction k t s (.sendPush b)
        { s with sendQueue := s.sendQueue ++ [b], sent := s.sent ++ [b] } .sendExchange
  | exchange (hr : s.sendRegistered = false) :
      SendAction k t s .sendExchange { s with sendRegistered := true } (.sendRelease true)
  | exchangeTaken (hr : s.sendRegistered = true) :
      SendAction k t s .sendExchange { s with sendRegistered := true } (.sendRelease false)
  | sendRegister :
      SendAction k t s (.sendRelease true) { s with sendLock := Mutex.release s.sendLock }
        (.regCheck .send)
  | sendRelease :
      SendAction k t s (.sendRelease false) { s with sendLock := Mutex.release s.sendLock } .idle
  | register (c : Caller) (hc : s.connected = true) :
      SendAction k t s (.regCheck c) s (.regAcquire c)
  | registerDead (c : Caller) (hc : s.connected = false) :
      SendAction k t s (.regCheck c) s c.return
  | regAcquire (c : Caller) (m : Mutex.State Tid) (hm : Mutex.acquire k s.sendLock t = some m) :
      SendAction k t s (.regAcquire c) { s with sendLock := m } (.regDrain c)
  | drain (c : Caller) :
      SendAction k t s (.regDrain c) { s with sendQueue := [] } (.regRelease c s.sendQueue)
  | regEmpty (c : Caller) :
      SendAction k t s (.regRelease c []) { s with sendLock := Mutex.release s.sendLock }
        (.regClear c)
  | regSome (c : Caller) (sendBuffers : List SendBytes) (hb : sendBuffers ≠ []) :
      SendAction k t s (.regRelease c sendBuffers)
        { s with sendLock := Mutex.release s.sendLock } (.regIssue c sendBuffers)
  | regClear (c : Caller) :
      SendAction k t s (.regClear c) { s with sendRegistered := false } c.return
  | issue (c : Caller) (sendBuffers : List SendBytes) :
      SendAction k t s (.regIssue c sendBuffers)
        { s with writes := s.writes ++ [⟨sendBuffers, none⟩] } c.return
  | proc (bytesTransferred : Nat) (hc : s.connected = true) (hn : bytesTransferred ≠ 0) :
      SendAction k t s (.procCheck bytesTransferred) s .procAcquire
  | procZero (hc : s.connected = true) : SendAction k t s (.procCheck 0) s .procDisconnect
  | procDead (bytesTransferred : Nat) (hc : s.connected = false) :
      SendAction k t s (.procCheck bytesTransferred) s .idle
  | procDisconnect : SendAction k t s .procDisconnect { s with connected := false } .idle
  | procAcquire (m : Mutex.State Tid) (hm : Mutex.acquire k s.sendLock t = some m) :
      SendAction k t s .procAcquire { s with sendLock := m } .procTest
  | procEmpty (hq : s.sendQueue = []) : SendAction k t s .procTest s .procClear
  | procRegister (hq : s.sendQueue ≠ []) :
      SendAction k t s .procTest s (.regCheck .processSend)
  | procClear : SendAction k t s .procClear { s with sendRegistered := false } .procRelease
  | procRelease :
      SendAction k t s .procRelease { s with sendLock := Mutex.release s.sendLock } .idle

theorem sendAction_of_step {k : Mutex.Kind} {t : Tid} {s s' : SendState} {p p' : Pc}
    (h : localStep k t s p = some (s', p')) : SendAction k t s p s' p' := by
  cases p with
  | idle => cases h
  | sendCheck b =>
      cases h
      cases hc : s.connected with
      | true => exact .send b hc
      | false => exact .sendDead b hc
  | sendAcquire b =>
      obtain ⟨m, hm, e⟩ := Option.map_eq_some_iff.mp h
      cases e
      exact .sendAcquire b m hm
  | sendPush b =>
      cases h
      exact .push b
  | sendExchange =>
      cases h
      cases hr : s.sendRegistered with
      | true => exact .exchangeTaken hr
      | false => exact .exchange hr
  | sendRelease registerSend =>
      cases h
      cases registerSend with
      | true => exact .sendRegister
      | false => exact .sendRelease
  | regCheck c =>
      cases h
      cases hc : s.connected with
      | true => exact .register c hc
      | false => exact .registerDead c hc
  | regAcquire c =>
      obtain ⟨m, hm, e⟩ := Option.map_eq_some_iff.mp h
      cases e
      exact .regAcquire c m hm
  | regDrain c =>
      cases h
      exact .drain c
  | regRelease c sendBuffers =>
      cases h
      cases sendBuffers with
      | nil => exact .regEmpty c
      | cons b bs => exact .regSome c (b :: bs) (List.cons_ne_nil b bs)
  | regClear c =>
      cases h
      exact .regClear c
  | regIssue c sendBuffers =>
      cases h
      exact .issue c sendBuffers
  | procCheck bytesTransferred =>
      cases h
      cases hc : s.connected with
      | true =>
          by_cases hn : bytesTransferred = 0
          · subst hn
            exact .procZero hc
          · simp only [if_true, if_neg hn]
            exact .proc bytesTransferred hc hn
      | false => exact .procDead bytesTransferred hc
  | procDisconnect =>
      cases h
      exact .procDisconnect
  | procAcquire =>
      obtain ⟨m, hm, e⟩ := Option.map_eq_some_iff.mp h
      cases e
      exact .procAcquire m hm
  | procTest =>
      cases h
      split
      · rename_i hq
        exact .procEmpty (List.isEmpty_iff.mp hq)
      · rename_i hq
        exact .procRegister fun hnil => hq (List.isEmpty_iff.mpr hnil)
  | procClear =>
      cases h
      exact .procClear
  | procRelease =>
      cases h
      exact .procRelease

/-- The buffers a thread has taken out of the queue and not yet handed to asio. -/
def Pc.batch : Pc → List SendBytes
  | .regRelease _ sendBuffers | .regIssue _ sendBuffers => sendBuffers
  | _ => []

@[simp] theorem Caller.batch_return (c : Caller) : c.return.batch = [] := by
  cases c <;> rfl

/-- **What an action can do with the data**: push a buffer, move the queue into the thread's
    batch, hand the batch to a write, or leave the data alone. -/
inductive DataMove (s s' : SendState) (p p' : Pc) : Prop where
  | push (b : SendBytes) (hp : p = .sendPush b) (hp' : p' = .sendExchange)
      (hq : s'.sendQueue = s.sendQueue ++ [b]) (hsent : s'.sent = s.sent ++ [b])
      (hw : s'.writes = s.writes)
  | drain (c : Caller) (hp : p = .regDrain c) (hp' : p' = .regRelease c s.sendQueue)
      (hq : s'.sendQueue = []) (hsent : s'.sent = s.sent) (hw : s'.writes = s.writes)
  | issue (c : Caller) (hp : p = .regIssue c p.batch) (hp' : p' = c.return)
      (hq : s'.sendQueue = s.sendQueue) (hsent : s'.sent = s.sent)
      (hw : s'.writes = s.writes ++ [⟨p.batch, none⟩])
  | leave (hbatch : p'.batch = p.batch) (hq : s'.sendQueue = s.sendQueue)
      (hsent : s'.sent = s.sent) (hw : s'.writes = s.writes)

theorem localStep_data {k : Mutex.Kind} {t : Tid} {s s' : SendState} {p p' : Pc}
    (h : localStep k t s p = some (s', p')) : DataMove s s' p p' ∧ s'.wire = s.wire := by
  cases sendAction_of_step h with
  | push b => exact ⟨.push b rfl rfl rfl rfl rfl, rfl⟩
  | drain c => exact ⟨.drain c rfl rfl rfl rfl rfl, rfl⟩
  | issue c => exact ⟨.issue c rfl rfl rfl rfl rfl, rfl⟩
  | registerDead c | regClear c => exact ⟨.leave c.batch_return rfl rfl rfl, rfl⟩
  | _ => exact ⟨.leave rfl rfl rfl rfl, rfl⟩

/-- What can happen next. -/
inductive Label where
  /-- the idle thread `t` calls `Send(b)` -/
  | call (t : Tid) (b : SendBytes)
  /-- thread `t` takes its next action -/
  | run (t : Tid)
  /-- the write `i` transmits the first `n` of its bytes and completes successfully -/
  | transmit (i n : Nat)
  /-- the handler of the completed write `i` starts on the idle thread `t` -/
  | complete (t : Tid) (i : Nat)
  /-- the write `i` fails with `error`; its handler runs `HandleError` -/
  | fail (i : Nat) (error : ErrorCode)
  /-- other code disconnects the session -/
  | disconnect
  /-- `ProcessConnect`: `_connected.store(true);` -/
  | connect
  deriving DecidableEq, Repr

/-- `HandleError(error)`. -/
def SendState.handleError (s : SendState) (error : ErrorCode) : SendState :=
  if error.disconnects then { s with connected := false } else s

/-- `HandleError` writes nothing but `_connected`. -/
theorem SendState.handleError_eq (s : SendState) (error : ErrorCode) :
    s.handleError error = { s with connected := s.connected && !error.disconnects } := by
  unfold handleError
  cases error.disconnects <;> simp

/-- **The step function of the send machine.** -/
def SendConf.next (k : Mutex.Kind) (c : SendConf) : Label → Option SendConf
  | .call t b => if c.pc t = .idle then some (c.set t c.sh (.sendCheck b)) else none
  | .run t => (localStep k t c.sh (c.pc t)).map fun r => c.set t r.1 r.2
  | .transmit i n =>
      match c.sh.writes[i]? with
      | some ⟨buffers, none⟩ =>
          if n ≤ buffers.flatten.length then
            some { c with sh := { c.sh with
              writes := c.sh.writes.set i ⟨buffers, some n⟩
              wire := c.sh.wire ++ buffers.flatten.take n } }
          else none
      | _ => none
  | .complete t i =>
      match c.sh.writes[i]? with
      | some ⟨_, some n⟩ =>
          if c.pc t = .idle then
            some (c.set t { c.sh with writes := c.sh.writes.eraseIdx i } (.procCheck n))
          else none
      | _ => none
  | .fail i error =>
      match c.sh.writes[i]? with
      | some ⟨_, none⟩ =>
          some { c with
            sh := { c.sh with writes := c.sh.writes.eraseIdx i }.handleError error }
      | _ => none
  | .disconnect => some { c with sh := { c.sh with connected := false } }
  | .connect => some { c with sh := { c.sh with connected := true } }

/-- No error occurs and the session stays as connected as it is: no write fails, every write
    transmits at least one byte, and no other code disconnects or connects the session. -/
def ErrorFree (_ : SendConf) : Label → Prop
  | .transmit _ n => 0 < n
  | .fail _ _ | .disconnect | .connect => False
  | _ => True

instance (c : SendConf) : (l : Label) → Decidable (ErrorFree c l)
  | .transmit _ n => inferInstanceAs (Decidable (0 < n))
  | .fail _ _ | .disconnect | .connect => .isFalse id
  | .call _ _ | .run _ | .complete _ _ => .isTrue trivial

/-- Thread `t` calls `Send(b)` and takes the next `n` actions. -/
def sendRun (t : Tid) (b : SendBytes) (n : Nat) : List Label :=
  .call t b :: List.replicate n (.run t)

/-- The only write transmits `transferred` bytes, its handler starts on `t` and takes the next
    `n` actions. -/
def completionRun (t : Tid) (transferred n : Nat) : List Label :=
  .transmit 0 transferred :: .complete t 0 :: List.replicate n (.run t)

/-- **What a step can do**, one case for each rule. -/
inductive Stepped (k : Mutex.Kind) (c : SendConf) : Label → SendConf → Prop where
  | call (t : Tid) (b : SendBytes) (hidle : c.pc t = .idle) :
      Stepped k c (.call t b) (c.set t c.sh (.sendCheck b))
  | run (t : Tid) (sh : SendState) (p : Pc) (h : localStep k t c.sh (c.pc t) = some (sh, p)) :
      Stepped k c (.run t) (c.set t sh p)
  | transmit (i n : Nat) (buffers : List SendBytes) (hw : c.sh.writes[i]? = some ⟨buffers, none⟩)
      (hn : n ≤ buffers.flatten.length) :
      Stepped k c (.transmit i n) { c with sh := { c.sh with
        writes := c.sh.writes.set i ⟨buffers, some n⟩
        wire := c.sh.wire ++ buffers.flatten.take n } }
  | complete (t : Tid) (i n : Nat) (buffers : List SendBytes)
      (hw : c.sh.writes[i]? = some ⟨buffers, some n⟩) (hidle : c.pc t = .idle) :
      Stepped k c (.complete t i)
        (c.set t { c.sh with writes := c.sh.writes.eraseIdx i } (.procCheck n))
  | fail (i : Nat) (error : ErrorCode) (buffers : List SendBytes)
      (hw : c.sh.writes[i]? = some ⟨buffers, none⟩) :
      Stepped k c (.fail i error)
        { c with sh := { c.sh with writes := c.sh.writes.eraseIdx i }.handleError error }
  | disconnect : Stepped k c .disconnect { c with sh := { c.sh with connected := false } }
  | connect : Stepped k c .connect { c with sh := { c.sh with connected := true } }

/-! ## 3. Inversion, and the two kinds of mutex -/

theorem stepped_of_next {k : Mutex.Kind} {c c' : SendConf} {l : Label}
    (h : c.next k l = some c') : Stepped k c l c' := by
  cases l with
  | call t b =>
      simp only [SendConf.next] at h
      split at h
      · rename_i hidle
        cases h
        exact .call t b hidle
      · cases h
  | run t =>
      obtain ⟨⟨sh, p⟩, hs, rfl⟩ := Option.map_eq_some_iff.mp h
      exact .run t sh p hs
  | transmit i n =>
      simp only [SendConf.next] at h
      split at h
      · rename_i buffers hw
        split at h
        · rename_i hn
          cases h
          exact .transmit i n buffers hw hn
        · cases h
      · cases h
  | complete t i =>
      simp only [SendConf.next] at h
      split at h
      · rename_i buffers n hw
        split at h
        · rename_i hidle
          cases h
          exact .complete t i n buffers hw hidle
        · cases h
      · cases h
  | fail i error =>
      simp only [SendConf.next] at h
      split at h
      · rename_i buffers hw
        cases h
        exact .fail i error buffers hw
      · cases h
  | disconnect =>
      cases h
      exact .disconnect
  | connect =>
      cases h
      exact .connect

end ServerCore
