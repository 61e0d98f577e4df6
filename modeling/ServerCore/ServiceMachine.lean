/-
  File:      ServerCore/ServiceMachine.lean
  Subject:   A Service with its sessions (Service.cpp, Session.cpp) as a machine of threads: the
             accept loop, ProcessConnect, RegisterRecv, Disconnect, AddSession and ReleaseSession,
             CloseService.

  A thread's counter `ServicePc` names its next atomic action: one access of an atomic or of
  `_sessionCount`, one acquisition or release of `_lock` (a `std::recursive_mutex`), one change of
  `_sessions` under it, one callback, one call of asio. `serviceStep` is that action.

  Sessions are numbered in the order in which they start to connect; the factory makes a new one
  for each accept, and a session object that is connected again counts as another. The environment
  completes accepts, receives and writes in any order (a socket that `Disconnect` closed completes
  its pending operations with an error), and other code may keep references to sessions, send on
  them and disconnect them. Callbacks do what other code does: a thread inside one keeps its
  counter while others act on its behalf.

  `log` records what was called. The service outlives its sessions, so `GetService()` is not null.
-/
import Mathlib.Data.Finset.Card
import ServerCore.SendMachine

namespace ServerCore

/-! ## 1. States -/

/-- A session. -/
abbrev Sid := Nat

/-- Who called `ProcessConnect`: the handler of `async_accept`, or that of `async_connect`. -/
inductive ConnectCaller where
  | accept
  | connect
  deriving DecidableEq, Repr

/-- The next action inside `ProcessConnect`. -/
inductive ConnectPc where
  /-- `_connected.store(true);` -/
  | store
  /-- `AddSession`: `unique_lock lock(_lock);` -/
  | acquire
  /-- `_sessions.insert(session);` -/
  | insert
  /-- `_sessionCount++;` -/
  | count
  /-- end of the lock's scope -/
  | release
  /-- `OnConnected();`, then `RegisterRecv()` -/
  | callback
  deriving DecidableEq, Repr

/-- Who called `RegisterRecv`. -/
inductive RecvCaller where
  | processConnect (c : ConnectCaller)
  | handler
  deriving DecidableEq, Repr

/-- The next action inside `RegisterRecv`, or inside `Send` and `RegisterSend`: the test of
    `IsConnected()`, and the call of asio. -/
inductive RegisterPc where
  | check
  | issue
  deriving DecidableEq, Repr

/-- Who called `Disconnect`. -/
inductive DisconnectCaller where
  /-- the accept handler: `Disconnect("Max sessions")` -/
  | accept
  /-- the receive handler -/
  | receive
  /-- the write handler, by `HandleError` or `ProcessSend` -/
  | write
  /-- other code, which holds a `shared_ptr` to the session -/
  | other
  /-- `CloseService`, which has visited these sessions, the last one first -/
  | close (visited : List Sid)
  deriving DecidableEq, Repr

/-- The next action inside `Disconnect`. -/
inductive DisconnectPc where
  /-- `if (_connected.exchange(false) == false) return;` -/
  | exchange
  /-- `_socket.shutdown(..); _socket.close(ec);` -/
  | close
  /-- `OnDisconnected();` -/
  | callback
  /-- `ReleaseSession`: `unique_lock lock(_lock);` -/
  | acquire
  /-- `_sessions.erase(session);` -/
  | erase
  /-- `_sessionCount--;` -/
  | count
  /-- end of the lock's scope -/
  | release
  deriving DecidableEq, Repr

/-- What a receive handler finds and does. -/
inductive ReceiveOutcome where
  /-- an error: `Disconnect("RegisterRecv Error")` -/
  | error
  /-- the length `OnRecv` returned is refused: `Disconnect("Read Overflow")` -/
  | overflow
  /-- `OnWrite` refuses the bytes: nothing more happens -/
  | refused
  /-- `RegisterRecv()` -/
  | again
  deriving DecidableEq, Repr

/-- What a write handler finds; `again`: `_sendQueue` is not empty. -/
inductive WriteOutcome where
  | failed (error : ErrorCode)
  | sent (bytesTransferred : Nat) (again : Bool)
  deriving DecidableEq, Repr

/-- The next action inside `CloseService`. -/
inductive ClosePc where
  /-- `unique_lock lock(_lock);` -/
  | acquire
  /-- the loop `for (const auto& session : _sessions)` -/
  | next
  /-- `_sessions.clear();` -/
  | clear
  /-- end of the lock's scope -/
  | release
  deriving DecidableEq, Repr

/-- The next atomic action of a thread. -/
inductive ServicePc where
  | idle
  /-- `StartAccept`: `if (GetCurrentSessionCount() >= GetMaxSessionCount())` -/
  | acceptLimit
  /-- `StartAccept`: `CreateSession()` and `_acceptor->async_accept(..)` -/
  | acceptIssue
  /-- the accept handler: `if (GetCurrentSessionCount() < GetMaxSessionCount())` -/
  | acceptTest (i : Sid)
  | connecting (c : ConnectCaller) (i : Sid) (p : ConnectPc)
  | registering (r : RecvCaller) (i : Sid) (p : RegisterPc)
  /-- the receive handler, up to what it decides; it calls `OnRecv` -/
  | received (i : Sid) (o : ReceiveOutcome)
  | disconnecting (d : DisconnectCaller) (i : Sid) (p : DisconnectPc)
  | sending (i : Sid) (p : RegisterPc)
  /-- the write handler, up to what it decides; it calls `OnSend` -/
  | written (i : Sid) (o : WriteOutcome)
  | closing (visited : List Sid) (p : ClosePc)
  deriving DecidableEq, Repr

/-- The calls that make and end a connection; `disconnect` is the one whose exchange found the
    session connected. -/
inductive ServiceCall where
  | addSession
  | onConnected
  | disconnect
  | onDisconnected
  | releaseSession
  deriving DecidableEq, Repr

/-- What was called; `ignored`: a `Disconnect` that found the session not connected. -/
inductive ServiceEvent where
  | call (k : ServiceCall) (i : Sid)
  | ignored (i : Sid)
  deriving DecidableEq, Repr

/-- What the threads share. `accepts`, `receives` and `writes` are the operations whose handler
    has not run yet, `holders` the `shared_ptr`s other code keeps, `created` the number of
    sessions that have started to connect. -/
structure ServiceState where
  sessionCount : Int
  sessions : Finset Sid
  lock : Mutex.State Tid
  acceptorOpen : Bool
  accepts : Nat
  created : Nat
  connected : Sid → Bool
  receives : Sid → Nat
  writes : Sid → Nat
  holders : Sid → Nat
  log : List ServiceEvent

/-- A configuration: the shared state and every thread's counter. -/
structure ServiceConf where
  sh : ServiceState
  pc : Tid → ServicePc

/-- Thread `t` moves to `p`, leaving the shared state `sh`. -/
def ServiceConf.set (c : ServiceConf) (t : Tid) (sh : ServiceState) (p : ServicePc) :
    ServiceConf :=
  ⟨sh, Function.update c.pc t p⟩

@[simp] theorem ServiceConf.set_sh (c : ServiceConf) (t : Tid) (sh : ServiceState)
    (p : ServicePc) : (c.set t sh p).sh = sh := rfl

@[simp] theorem ServiceConf.set_pc_self (c : ServiceConf) (t : Tid) (sh : ServiceState)
    (p : ServicePc) : (c.set t sh p).pc t = p := by
  simp [ServiceConf.set]

theorem ServiceConf.set_pc_of_ne (c : ServiceConf) {t u : Tid} (sh : ServiceState)
    (p : ServicePc) (h : u ≠ t) : (c.set t sh p).pc u = c.pc u := by
  simp [ServiceConf.set, h]

/-- A property of every counter is kept when the one that moves has it again. -/
theorem ServiceConf.forall_pc_set {c : ServiceConf} {Q : ServicePc → Prop}
    (h : ∀ u, Q (c.pc u)) {t : Tid} {sh : ServiceState} {p : ServicePc} (hp : Q p) (u : Tid) :
    Q ((c.set t sh p).pc u) := by
  by_cases hu : u = t
  · subst hu
    rw [set_pc_self]
    exact hp
  · rw [set_pc_of_ne c sh p hu]
    exact h u

/-- What holds of a counter now held of it before, or holds of the one that moved. -/
theorem ServiceConf.of_pc_set {c : ServiceConf} {Q : ServicePc → Prop} {t u : Tid}
    {sh : ServiceState} {p : ServicePc} (h : Q ((c.set t sh p).pc u)) : Q (c.pc u) ∨ Q p := by
  by_cases hu : u = t
  · subst hu
    rw [set_pc_self] at h
    exact .inr h
  · rw [set_pc_of_ne c sh p hu] at h
    exact .inl h

/-- A service no thread uses yet. -/
def ServiceState.fresh : ServiceState :=
  ⟨0, ∅, none, true, 0, 0, fun _ => false, fun _ => 0, fun _ => 0, fun _ => 0, []⟩

/-- A service that has been started. A ServerService: thread 0 is inside `StartAccept`. A
    ClientService: its sessions may connect. -/
def ServiceConf.started (server : Bool) : ServiceConf :=
  ⟨.fresh, fun t => if server && t == 0 then .acceptLimit else .idle⟩

/-! ## 2. Steps -/

/-- Where `ProcessConnect` returns to; the accept handler goes on with `StartAccept()`. -/
def ConnectCaller.return : ConnectCaller → ServicePc
  | .accept => .acceptLimit
  | .connect => .idle

/-- Where `RegisterRecv` returns to. -/
def RecvCaller.return : RecvCaller → ServicePc
  | .processConnect c => c.return
  | .handler => .idle

/-- Where `Disconnect` returns to. -/
def DisconnectCaller.return : DisconnectCaller → ServicePc
  | .accept => .acceptLimit
  | .close visited => .closing visited .next
  | .receive | .write | .other => .idle

/-- `ProcessConnect` of the session `i`, one action. -/
def connectStep (t : Tid) (s : ServiceState) (c : ConnectCaller) (i : Sid) :
    ConnectPc → Option (ServiceState × ServicePc)
  | .store =>
      some ({ s with connected := Function.update s.connected i true }, .connecting c i .acquire)
  | .acquire =>
      (Mutex.acquire .reentrant s.lock t).map fun m =>
        ({ s with lock := m }, .connecting c i .insert)
  | .insert =>
      some ({ s with sessions := insert i s.sessions, log := s.log ++ [.call .addSession i] },
        .connecting c i .count)
  | .count => some ({ s with sessionCount := s.sessionCount + 1 }, .connecting c i .release)
  | .release => some ({ s with lock := Mutex.release s.lock }, .connecting c i .callback)
  | .callback =>
      some ({ s with log := s.log ++ [.call .onConnected i] },
        .registering (.processConnect c) i .check)

/-- `RegisterRecv` of the session `i`, one action. -/
def registerStep (s : ServiceState) (r : RecvCaller) (i : Sid) :
    RegisterPc → ServiceState × ServicePc
  | .check => (s, if s.connected i then .registering r i .issue else r.return)
  | .issue => ({ s with receives := Function.update s.receives i (s.receives i + 1) }, r.return)

/-- `Disconnect` of the session `i`, one action. -/
def disconnectStep (t : Tid) (s : ServiceState) (d : DisconnectCaller) (i : Sid) :
    DisconnectPc → Option (ServiceState × ServicePc)
  | .exchange =>
      some ({ s with
          connected := Function.update s.connected i false
          log := s.log ++ [if s.connected i then .call .disconnect i else .ignored i] },
        if s.connected i then .disconnecting d i .close else d.return)
  | .close => some (s, .disconnecting d i .callback)
  | .callback =>
      some ({ s with log := s.log ++ [.call .onDisconnected i] }, .disconnecting d i .acquire)
  | .acquire =>
      (Mutex.acquire .reentrant s.lock t).map fun m =>
        ({ s with lock := m }, .disconnecting d i .erase)
  | .erase =>
      some ({ s with sessions := s.sessions.erase i, log := s.log ++ [.call .releaseSession i] },
        .disconnecting d i .count)
  | .count => some ({ s with sessionCount := s.sessionCount - 1 }, .disconnecting d i .release)
  | .release => some ({ s with lock := Mutex.release s.lock }, d.return)

/-- `Send` or `RegisterSend` of the session `i`, as far as it issues a write. -/
def sendStep (s : ServiceState) (i : Sid) : RegisterPc → ServiceState × ServicePc
  | .check => (s, if s.connected i then .sending i .issue else .idle)
  | .issue => ({ s with writes := Function.update s.writes i (s.writes i + 1) }, .idle)

/-- What the receive handler goes on with. -/
def ReceiveOutcome.next (i : Sid) : ReceiveOutcome → ServicePc
  | .error | .overflow => .disconnecting .receive i .exchange
  | .refused => .idle
  | .again => .registering .handler i .check

/-- What the write handler goes on with: `HandleError`, or `ProcessSend`. -/
def WriteOutcome.next (s : ServiceState) (i : Sid) : WriteOutcome → ServicePc
  | .failed error => if error.disconnects then .disconnecting .write i .exchange else .idle
  | .sent bytesTransferred again =>
      if !s.connected i then .idle
      else if bytesTransferred = 0 then .disconnecting .write i .exchange
      else if again then .sending i .check
      else .idle

/-- The iterator of `CloseService` is valid: the session it is at was not erased. -/
def validIterator (s : ServiceState) : List Sid → Bool
  | [] => true
  | i :: _ => decide (i ∈ s.sessions)

/-- `CloseService`, one action; `none` at the loop: a session is to be visited, or the iterator is
    not valid and the loop has no defined behaviour. -/
def closeStep (t : Tid) (s : ServiceState) (visited : List Sid) :
    ClosePc → Option (ServiceState × ServicePc)
  | .acquire =>
      (Mutex.acquire .reentrant s.lock t).map fun m => ({ s with lock := m }, .closing [] .next)
  | .next =>
      if validIterator s visited = true ∧ ∀ i ∈ s.sessions, i ∈ visited then
        some (s, .closing visited .clear)
      else none
  | .clear => some ({ s with sessions := ∅ }, .closing visited .release)
  | .release => some ({ s with lock := Mutex.release s.lock }, .idle)

/-- **One atomic action** of thread `t` at a counter; `none`: nothing to do, or blocked. -/
def serviceStep (limit : Int) (t : Tid) (s : ServiceState) :
    ServicePc → Option (ServiceState × ServicePc)
  | .idle => none
  | .acceptLimit => some (s, if limit ≤ s.sessionCount then .idle else .acceptIssue)
  | .acceptIssue => some ({ s with accepts := s.accepts + 1 }, .idle)
  | .acceptTest i =>
      some (s, if s.sessionCount < limit then .connecting .accept i .store
        else .disconnecting .accept i .exchange)
  | .connecting c i p => connectStep t s c i p
  | .registering r i p => some (registerStep s r i p)
  | .received i o => some (s, o.next i)
  | .disconnecting d i p => disconnectStep t s d i p
  | .sending i p => some (sendStep s i p)
  | .written i o => some (s, o.next s i)
  | .closing visited p => closeStep t s visited p

/-- Where other code gets a reference to a session from. -/
inductive HoldSource where
  /-- the factory kept it -/
  | factory
  /-- `_sessions` (as `Broadcast` does) -/
  | set
  /-- a callback of the session, running on this thread -/
  | callback (t : Tid)
  deriving DecidableEq, Repr

/-- The thread is inside a callback of the session `i`. -/
def ServicePc.inCallback (i : Sid) : ServicePc → Bool
  | .connecting _ j .callback | .received j _ | .written j _
  | .disconnecting _ j .callback => j == i
  | _ => false

/-- The reference can be had. -/
def HoldSource.available (c : ServiceConf) (i : Sid) : HoldSource → Bool
  | .factory => true
  | .set => decide (i ∈ c.sh.sessions)
  | .callback t => (c.pc t).inCallback i

/-- What can happen next. -/
inductive ServiceLabel where
  /-- the outstanding accept completes; its handler starts on the idle thread `t` -/
  | accept (t : Tid) (error : Bool)
  /-- an `async_connect` succeeds; its handler starts on the idle thread `t` -/
  | connect (t : Tid)
  /-- a receive of the session `i` completes; its handler starts on the idle thread `t` -/
  | receive (t : Tid) (i : Sid) (o : ReceiveOutcome)
  /-- a write of the session `i` completes; its handler starts on the idle thread `t` -/
  | write (t : Tid) (i : Sid) (o : WriteOutcome)
  /-- other code takes a reference to the session `i` -/
  | hold (i : Sid) (source : HoldSource)
  /-- other code drops a reference to the session `i` -/
  | drop (i : Sid)
  /-- code with a reference calls `Send` on the idle thread `t` -/
  | send (t : Tid) (i : Sid)
  /-- code with a reference calls `Disconnect` on the idle thread `t` -/
  | disconnect (t : Tid) (i : Sid)
  /-- the idle thread `t` calls `CloseService`, which first closes the acceptor -/
  | closeService (t : Tid)
  /-- `CloseService` on thread `t` comes to the session `i` -/
  | visit (t : Tid) (i : Sid)
  /-- thread `t` takes its next action -/
  | run (t : Tid)
  deriving DecidableEq, Repr

/-- The idle thread `t` starts at `p`. -/
def ServiceConf.start (c : ServiceConf) (t : Tid) (sh : ServiceState) (p : ServicePc) :
    Option ServiceConf :=
  if c.pc t = .idle then some (c.set t sh p) else none

/-- **The step function of the service machine**; `limit` is `_maxSessionCount`. -/
def ServiceConf.next (limit : Int) (c : ServiceConf) : ServiceLabel → Option ServiceConf
  | .accept t error =>
      if 0 < c.sh.accepts then
        if error then c.start t { c.sh with accepts := c.sh.accepts - 1 } .acceptLimit
        else
          c.start t { c.sh with accepts := c.sh.accepts - 1, created := c.sh.created + 1 }
            (.acceptTest c.sh.created)
      else none
  | .connect t =>
      c.start t { c.sh with created := c.sh.created + 1 } (.connecting .connect c.sh.created .store)
  | .receive t i o =>
      if 0 < c.sh.receives i then
        c.start t { c.sh with receives := Function.update c.sh.receives i (c.sh.receives i - 1) }
          (.received i o)
      else none
  | .write t i o =>
      if 0 < c.sh.writes i then
        c.start t { c.sh with writes := Function.update c.sh.writes i (c.sh.writes i - 1) }
          (.written i o)
      else none
  | .hold i source =>
      if source.available c i then
        some { c with sh := { c.sh with
          holders := Function.update c.sh.holders i (c.sh.holders i + 1) } }
      else none
  | .drop i =>
      if 0 < c.sh.holders i then
        some { c with sh := { c.sh with
          holders := Function.update c.sh.holders i (c.sh.holders i - 1) } }
      else none
  | .send t i => if 0 < c.sh.holders i then c.start t c.sh (.sending i .check) else none
  | .disconnect t i =>
      if 0 < c.sh.holders i then c.start t c.sh (.disconnecting .other i .exchange) else none
  | .closeService t => c.start t { c.sh with acceptorOpen := false } (.closing [] .acquire)
  | .visit t i =>
      match c.pc t with
      | .closing visited .next =>
          if validIterator c.sh visited = true ∧ i ∈ c.sh.sessions ∧ i ∉ visited then
            some (c.set t c.sh (.disconnecting (.close (i :: visited)) i .exchange))
          else none
      | _ => none
  | .run t => (serviceStep limit t c.sh (c.pc t)).map fun r => c.set t r.1 r.2

/-! ## 3. Inversion -/

/-- **What a step can do**, one case for each rule. -/
inductive ServiceStepped (limit : Int) (c : ServiceConf) : ServiceLabel → ServiceConf → Prop
  where
  | acceptError (t : Tid) (ha : 0 < c.sh.accepts) (hidle : c.pc t = .idle) :
      ServiceStepped limit c (.accept t true)
        (c.set t { c.sh with accepts := c.sh.accepts - 1 } .acceptLimit)
  | accept (t : Tid) (ha : 0 < c.sh.accepts) (hidle : c.pc t = .idle) :
      ServiceStepped limit c (.accept t false)
        (c.set t { c.sh with accepts := c.sh.accepts - 1, created := c.sh.created + 1 }
          (.acceptTest c.sh.created))
  | connect (t : Tid) (hidle : c.pc t = .idle) :
      ServiceStepped limit c (.connect t)
        (c.set t { c.sh with created := c.sh.created + 1 }
          (.connecting .connect c.sh.created .store))
  | receive (t : Tid) (i : Sid) (o : ReceiveOutcome) (hr : 0 < c.sh.receives i)
      (hidle : c.pc t = .idle) :
      ServiceStepped limit c (.receive t i o)
        (c.set t { c.sh with receives := Function.update c.sh.receives i (c.sh.receives i - 1) }
          (.received i o))
  | write (t : Tid) (i : Sid) (o : WriteOutcome) (hw : 0 < c.sh.writes i)
      (hidle : c.pc t = .idle) :
      ServiceStepped limit c (.write t i o)
        (c.set t { c.sh with writes := Function.update c.sh.writes i (c.sh.writes i - 1) }
          (.written i o))
  | hold (i : Sid) (source : HoldSource) (hs : source.available c i = true) :
      ServiceStepped limit c (.hold i source)
        { c with sh := { c.sh with
          holders := Function.update c.sh.holders i (c.sh.holders i + 1) } }
  | drop (i : Sid) (hh : 0 < c.sh.holders i) :
      ServiceStepped limit c (.drop i)
        { c with sh := { c.sh with
          holders := Function.update c.sh.holders i (c.sh.holders i - 1) } }
  | send (t : Tid) (i : Sid) (hh : 0 < c.sh.holders i) (hidle : c.pc t = .idle) :
      ServiceStepped limit c (.send t i) (c.set t c.sh (.sending i .check))
  | disconnect (t : Tid) (i : Sid) (hh : 0 < c.sh.holders i) (hidle : c.pc t = .idle) :
      ServiceStepped limit c (.disconnect t i)
        (c.set t c.sh (.disconnecting .other i .exchange))
  | closeService (t : Tid) (hidle : c.pc t = .idle) :
      ServiceStepped limit c (.closeService t)
        (c.set t { c.sh with acceptorOpen := false } (.closing [] .acquire))
  | visit (t : Tid) (i : Sid) (visited : List Sid) (hp : c.pc t = .closing visited .next)
      (hv : validIterator c.sh visited = true) (hi : i ∈ c.sh.sessions) (hnew : i ∉ visited) :
      ServiceStepped limit c (.visit t i)
        (c.set t c.sh (.disconnecting (.close (i :: visited)) i .exchange))
  | run (t : Tid) (sh : ServiceState) (p : ServicePc)
      (h : serviceStep limit t c.sh (c.pc t) = some (sh, p)) :
      ServiceStepped limit c (.run t) (c.set t sh p)

/-- **What one atomic action can do**, one case for each: from where, to which shared state, to
    where. -/
inductive ServiceAction (limit : Int) (t : Tid) (s : ServiceState) :
    ServicePc → ServiceState → ServicePc → Prop where
  | full (hfull : limit ≤ s.sessionCount) : ServiceAction limit t s .acceptLimit s .idle
  | room (hroom : s.sessionCount < limit) : ServiceAction limit t s .acceptLimit s .acceptIssue
  | issueAccept :
      ServiceAction limit t s .acceptIssue { s with accepts := s.accepts + 1 } .idle
  | allow (i : Sid) (hroom : s.sessionCount < limit) :
      ServiceAction limit t s (.acceptTest i) s (.connecting .accept i .store)
  | refuse (i : Sid) (hfull : limit ≤ s.sessionCount) :
      ServiceAction limit t s (.acceptTest i) s (.disconnecting .accept i .exchange)
  | store (k : ConnectCaller) (i : Sid) :
      ServiceAction limit t s (.connecting k i .store)
        { s with connected := Function.update s.connected i true } (.connecting k i .acquire)
  | connectAcquire (k : ConnectCaller) (i : Sid) (m : Mutex.State Tid)
      (hm : Mutex.acquire .reentrant s.lock t = some m) :
      ServiceAction limit t s (.connecting k i .acquire) { s with lock := m }
        (.connecting k i .insert)
  | insert (k : ConnectCaller) (i : Sid) :
      ServiceAction limit t s (.connecting k i .insert)
        { s with sessions := insert i s.sessions, log := s.log ++ [.call .addSession i] }
        (.connecting k i .count)
  | countUp (k : ConnectCaller) (i : Sid) :
      ServiceAction limit t s (.connecting k i .count)
        { s with sessionCount := s.sessionCount + 1 } (.connecting k i .release)
  | connectRelease (k : ConnectCaller) (i : Sid) :
      ServiceAction limit t s (.connecting k i .release)
        { s with lock := Mutex.release s.lock } (.connecting k i .callback)
  | onConnected (k : ConnectCaller) (i : Sid) :
      ServiceAction limit t s (.connecting k i .callback)
        { s with log := s.log ++ [.call .onConnected i] }
        (.registering (.processConnect k) i .check)
  | register (r : RecvCaller) (i : Sid) (hconn : s.connected i = true) :
      ServiceAction limit t s (.registering r i .check) s (.registering r i .issue)
  | registerDead (r : RecvCaller) (i : Sid) (hdead : s.connected i = false) :
      ServiceAction limit t s (.registering r i .check) s r.return
  | issueReceive (r : RecvCaller) (i : Sid) :
      ServiceAction limit t s (.registering r i .issue)
        { s with receives := Function.update s.receives i (s.receives i + 1) } r.return
  | receivedError (i : Sid) (o : ReceiveOutcome) (ho : o = .error ∨ o = .overflow) :
      ServiceAction limit t s (.received i o) s (.disconnecting .receive i .exchange)
  | receivedRefused (i : Sid) : ServiceAction limit t s (.received i .refused) s .idle
  | receivedAgain (i : Sid) :
      ServiceAction limit t s (.received i .again) s (.registering .handler i .check)
  | exchange (d : DisconnectCaller) (i : Sid) (hconn : s.connected i = true) :
      ServiceAction limit t s (.disconnecting d i .exchange)
        { s with
          connected := Function.update s.connected i false
          log := s.log ++ [.call .disconnect i] }
        (.disconnecting d i .close)
  | exchangeIgnored (d : DisconnectCaller) (i : Sid) (hdead : s.connected i = false) :
      ServiceAction limit t s (.disconnecting d i .exchange)
        { s with
          connected := Function.update s.connected i false
          log := s.log ++ [.ignored i] }
        d.return
  | close (d : DisconnectCaller) (i : Sid) :
      ServiceAction limit t s (.disconnecting d i .close) s (.disconnecting d i .callback)
  | onDisconnected (d : DisconnectCaller) (i : Sid) :
      ServiceAction limit t s (.disconnecting d i .callback)
        { s with log := s.log ++ [.call .onDisconnected i] } (.disconnecting d i .acquire)
  | disconnectAcquire (d : DisconnectCaller) (i : Sid) (m : Mutex.State Tid)
      (hm : Mutex.acquire .reentrant s.lock t = some m) :
      ServiceAction limit t s (.disconnecting d i .acquire) { s with lock := m }
        (.disconnecting d i .erase)
  | erase (d : DisconnectCaller) (i : Sid) :
      ServiceAction limit t s (.disconnecting d i .erase)
        { s with sessions := s.sessions.erase i, log := s.log ++ [.call .releaseSession i] }
        (.disconnecting d i .count)
  | countDown (d : DisconnectCaller) (i : Sid) :
      ServiceAction limit t s (.disconnecting d i .count)
        { s with sessionCount := s.sessionCount - 1 } (.disconnecting d i .release)
  | disconnectRelease (d : DisconnectCaller) (i : Sid) :
      ServiceAction limit t s (.disconnecting d i .release)
        { s with lock := Mutex.release s.lock } d.return
  | send (i : Sid) (hconn : s.connected i = true) :
      ServiceAction limit t s (.sending i .check) s (.sending i .issue)
  | sendDead (i : Sid) (hdead : s.connected i = false) :
      ServiceAction limit t s (.sending i .check) s .idle
  | issueWrite (i : Sid) :
      ServiceAction limit t s (.sending i .issue)
        { s with writes := Function.update s.writes i (s.writes i + 1) } .idle
  | writtenDone (i : Sid) (o : WriteOutcome) (ho : o.next s i = .idle) :
      ServiceAction limit t s (.written i o) s .idle
  | writtenError (i : Sid) (o : WriteOutcome)
      (ho : o.next s i = .disconnecting .write i .exchange) :
      ServiceAction limit t s (.written i o) s (.disconnecting .write i .exchange)
  | writtenAgain (i : Sid) (o : WriteOutcome) (ho : o.next s i = .sending i .check) :
      ServiceAction limit t s (.written i o) s (.sending i .check)
  | closeAcquire (visited : List Sid) (m : Mutex.State Tid)
      (hm : Mutex.acquire .reentrant s.lock t = some m) :
      ServiceAction limit t s (.closing visited .acquire) { s with lock := m } (.closing [] .next)
  | sweep (visited : List Sid) (hv : validIterator s visited = true)
      (hall : ∀ i ∈ s.sessions, i ∈ visited) :
      ServiceAction limit t s (.closing visited .next) s (.closing visited .clear)
  | clear (visited : List Sid) :
      ServiceAction limit t s (.closing visited .clear) { s with sessions := ∅ }
        (.closing visited .release)
  | closeRelease (visited : List Sid) :
      ServiceAction limit t s (.closing visited .release)
        { s with lock := Mutex.release s.lock } .idle

/-- The write handler is done, disconnects, or sends what is queued. -/
theorem WriteOutcome.next_cases (s : ServiceState) (i : Sid) (o : WriteOutcome) :
    o.next s i = .idle ∨ o.next s i = .disconnecting .write i .exchange ∨
      o.next s i = .sending i .check := by
  cases o with
  | failed error =>
      unfold WriteOutcome.next
      dsimp only
      split
      · exact .inr (.inl rfl)
      · exact .inl rfl
  | sent bytesTransferred again =>
      unfold WriteOutcome.next
      dsimp only
      split
      · exact .inl rfl
      · split
        · exact .inr (.inl rfl)
        · split
          · exact .inr (.inr rfl)
          · exact .inl rfl

theorem serviceAction_of_step {limit : Int} {t : Tid} {s s' : ServiceState} {p q : ServicePc}
    (h : serviceStep limit t s p = some (s', q)) : ServiceAction limit t s p s' q := by
  cases p with
  | idle => cases h
  | acceptLimit =>
      cases h
      split
      · rename_i hfull
        exact .full hfull
      · rename_i hroom
        exact .room (Int.not_le.mp hroom)
  | acceptIssue =>
      cases h
      exact .issueAccept
  | acceptTest i =>
      cases h
      split
      · rename_i hroom
        exact .allow i hroom
      · rename_i hfull
        exact .refuse i (Int.not_lt.mp hfull)
  | connecting k i p =>
      cases p with
      | acquire =>
          obtain ⟨m, hm, e⟩ := Option.map_eq_some_iff.mp h
          cases e
          exact .connectAcquire k i m hm
      | store =>
          cases h
          exact .store k i
      | insert =>
          cases h
          exact .insert k i
      | count =>
          cases h
          exact .countUp k i
      | release =>
          cases h
          exact .connectRelease k i
      | callback =>
          cases h
          exact .onConnected k i
  | registering r i p =>
      cases p with
      | check =>
          cases h
          split
          · rename_i hconn
            exact .register r i hconn
          · rename_i hdead
            exact .registerDead r i (Bool.eq_false_of_not_eq_true hdead)
      | issue =>
          cases h
          exact .issueReceive r i
  | received i o =>
      cases h
      cases o with
      | error => exact .receivedError i .error (.inl rfl)
      | overflow => exact .receivedError i .overflow (.inr rfl)
      | refused => exact .receivedRefused i
      | again => exact .receivedAgain i
  | disconnecting d i p =>
      cases p with
      | exchange =>
          simp only [serviceStep, disconnectStep] at h
          cases h
          cases hconn : s.connected i with
          | true => exact .exchange d i hconn
          | false => exact .exchangeIgnored d i hconn
      | acquire =>
          obtain ⟨m, hm, e⟩ := Option.map_eq_some_iff.mp h
          cases e
          exact .disconnectAcquire d i m hm
      | close =>
          cases h
          exact .close d i
      | callback =>
          cases h
          exact .onDisconnected d i
      | erase =>
          cases h
          exact .erase d i
      | count =>
          cases h
          exact .countDown d i
      | release =>
          cases h
          exact .disconnectRelease d i
  | sending i p =>
      cases p with
      | check =>
          cases h
          split
          · rename_i hconn
            exact .send i hconn
          · rename_i hdead
            exact .sendDead i (Bool.eq_false_of_not_eq_true hdead)
      | issue =>
          cases h
          exact .issueWrite i
  | written i o =>
      cases h
      rcases o.next_cases s i with ho | ho | ho
      · rw [ho]
        exact .writtenDone i o ho
      · rw [ho]
        exact .writtenError i o ho
      · rw [ho]
        exact .writtenAgain i o ho
  | closing visited p =>
      cases p with
      | acquire =>
          obtain ⟨m, hm, e⟩ := Option.map_eq_some_iff.mp h
          cases e
          exact .closeAcquire visited m hm
      | next =>
          simp only [serviceStep, closeStep] at h
          split at h
          · rename_i hend
            cases h
            exact .sweep visited hend.1 hend.2
          · cases h
      | clear =>
          cases h
          exact .clear visited
      | release =>
          cases h
          exact .closeRelease visited

/-- An operation that completes was outstanding. -/
theorem pos_of_update_pred {f : Sid → Nat} {i j : Sid} (h : 0 < Function.update f j (f j - 1) i) :
    0 < f i := by
  by_cases hij : i = j
  · subst hij
    rw [Function.update_self] at h
    omega
  · rwa [Function.update_of_ne hij] at h

/-- A thread that starts was idle. -/
theorem ServiceConf.start_eq_some {c c' : ServiceConf} {t : Tid} {sh : ServiceState}
    {p : ServicePc} (h : c.start t sh p = some c') : c.pc t = .idle ∧ c' = c.set t sh p := by
  unfold ServiceConf.start at h
  split at h
  · rename_i hidle
    exact ⟨hidle, (Option.some.inj h).symm⟩
  · nomatch h

/-- A thread that has just moved takes its next action. -/
theorem ServiceConf.next_set_run {limit : Int} {c : ServiceConf} {t : Tid} {sh sh' : ServiceState}
    {p p' : ServicePc} (h : serviceStep limit t sh p = some (sh', p')) :
    (c.set t sh p).next limit (.run t) = some (c.set t sh' p') := by
  simp only [next, set_pc_self, set_sh, h, Option.map_some]
  simp [set]

theorem serviceStepped_of_next {limit : Int} {c c' : ServiceConf} {l : ServiceLabel}
    (h : c.next limit l = some c') : ServiceStepped limit c l c' := by
  cases l with
  | accept t error =>
      simp only [ServiceConf.next] at h
      split at h
      · rename_i ha
        cases error with
        | true =>
            obtain ⟨hidle, rfl⟩ := ServiceConf.start_eq_some h
            exact .acceptError t ha hidle
        | false =>
            obtain ⟨hidle, rfl⟩ := ServiceConf.start_eq_some h
            exact .accept t ha hidle
      · nomatch h
  | connect t =>
      obtain ⟨hidle, rfl⟩ := ServiceConf.start_eq_some h
      exact .connect t hidle
  | receive t i o =>
      simp only [ServiceConf.next] at h
      split at h
      · rename_i hr
        obtain ⟨hidle, rfl⟩ := ServiceConf.start_eq_some h
        exact .receive t i o hr hidle
      · nomatch h
  | write t i o =>
      simp only [ServiceConf.next] at h
      split at h
      · rename_i hw
        obtain ⟨hidle, rfl⟩ := ServiceConf.start_eq_some h
        exact .write t i o hw hidle
      · nomatch h
  | hold i source =>
      simp only [ServiceConf.next] at h
      split at h
      · rename_i hs
        cases h
        exact .hold i source hs
      · nomatch h
  | drop i =>
      simp only [ServiceConf.next] at h
      split at h
      · rename_i hh
        cases h
        exact .drop i hh
      · nomatch h
  | send t i =>
      simp only [ServiceConf.next] at h
      split at h
      · rename_i hh
        obtain ⟨hidle, rfl⟩ := ServiceConf.start_eq_some h
        exact .send t i hh hidle
      · nomatch h
  | disconnect t i =>
      simp only [ServiceConf.next] at h
      split at h
      · rename_i hh
        obtain ⟨hidle, rfl⟩ := ServiceConf.start_eq_some h
        exact .disconnect t i hh hidle
      · nomatch h
  | closeService t =>
      obtain ⟨hidle, rfl⟩ := ServiceConf.start_eq_some h
      exact .closeService t hidle
  | visit t i =>
      simp only [ServiceConf.next] at h
      split at h
      · rename_i visited hp
        split at h
        · rename_i hc
          cases h
          exact .visit t i visited hp hc.1 hc.2.1 hc.2.2
        · nomatch h
      · nomatch h
  | run t =>
      obtain ⟨⟨sh, p⟩, hs, rfl⟩ := Option.map_eq_some_iff.mp h
      exact .run t sh p hs

end ServerCore
