/-
  File:      ServerCore/StressTest.lean
  Subject:   The stress test between ClientSession (client.cpp) and GameSession (server.cpp).

  The client asks for a test (RequestStressTest), sends the messages of the test on a timer once
  the server has confirmed (SendStressTestData), counts the echoes and ends the test when there
  are enough (EndStressTest); the server then sends the result, on which the client is done.

  `StressTest` are the two sessions and the packets on the way between them, each direction in
  order and without loss; a step is one call of a handler, of the timer or of RequestStressTest.
  Of the packets it has what a handler decides on: not the timestamps and the statistics made of
  them, and not the filling.
-/
import ServerCore.FileTransfer
import ServerCore.Lib.Trans
import Mathlib.Order.Interval.Finset.Nat

namespace ServerCore

/-! ## 1. The packets -/

/-- `StressTestStartData`, of three `uint32_t` -/
structure StressTestStartData where
  messageCount : Nat
  messageSize : Nat
  intervalMs : Nat
  messageCount_lt : messageCount < 2 ^ 32
  messageSize_lt : messageSize < 2 ^ 32
  intervalMs_lt : intervalMs < 2 ^ 32
  deriving DecidableEq

/-- The three numbers as `uint32_t`. -/
def StressTestStartData.ofNat (messageCount messageSize intervalMs : Nat) :
    StressTestStartData :=
  ⟨u32 messageCount, u32 messageSize, u32 intervalMs, u32_lt messageCount, u32_lt messageSize,
    u32_lt intervalMs⟩

/-- The counts of `StressTestResult` -/
structure StressTestResult where
  totalMessages : Nat
  receivedMessages : Nat
  lostMessages : Nat
  deriving DecidableEq, Repr

/-- What the client sends: `PKT_C_STRESS_START`, `PKT_C_STRESS_DATA`, `PKT_C_STRESS_END`. -/
inductive ClientPacket where
  | stressStart (startData : StressTestStartData)
  | stressData (sequenceNumber : Nat)
  | stressEnd
  deriving DecidableEq

/-- What the server sends: `PKT_S_STRESS_START`, `PKT_S_STRESS_DATA`, `PKT_S_STRESS_RESULT`. -/
inductive ServerPacket where
  | stressStart
  | stressData (sequenceNumber : Nat)
  | stressResult (result : StressTestResult)
  deriving DecidableEq

/-! ## 2. The client -/

/-- The stress test of a `ClientSession`; of `_stressTestTimer`, whether a wait is pending on it,
    and how many handlers of waits that are over have still to be called. -/
structure StressClient where
  stressTestActive : Bool
  stressTestConfig : StressTestStartData
  stressTestCurrentSeq : Nat
  stressTestReceivedCount : Nat
  lastReportedProgress : Nat
  waiting : Bool
  due : Nat
  deriving DecidableEq

namespace StressClient

/-- `RequestStressTest(messageCount, messageSize, intervalMs)`, and what it sends -/
def requestStressTest (c : StressClient) (startData : StressTestStartData) :
    StressClient × List ClientPacket :=
  if c.stressTestActive then (c, [])
  else if startData.messageSize > 4000 then (c, [])
  else
    ({ c with
        stressTestConfig := startData
        stressTestCurrentSeq := 0
        stressTestReceivedCount := 0
        lastReportedProgress := 0 },
      [.stressStart startData])

/-- A request is refused, or sends the start. -/
theorem requestStressTest_cases (c : StressClient) (startData : StressTestStartData) :
    ((c.stressTestActive = true ∨ startData.messageSize > 4000) ∧
        c.requestStressTest startData = (c, [])) ∨
      (c.stressTestActive = false ∧ startData.messageSize ≤ 4000 ∧
        c.requestStressTest startData =
          ({ c with
              stressTestConfig := startData
              stressTestCurrentSeq := 0
              stressTestReceivedCount := 0
              lastReportedProgress := 0 },
            [.stressStart startData])) := by
  unfold requestStressTest
  split
  · rename_i hactive
    exact .inl ⟨.inl hactive, rfl⟩
  · rename_i hactive
    split
    · rename_i hsize
      exact .inl ⟨.inr hsize, rfl⟩
    · rename_i hsize
      exact .inr ⟨Bool.not_eq_true _ ▸ hactive, by omega, rfl⟩

/-- `SendStressTestData()`: a wait that was pending is replaced by the new one. -/
def sendStressTestData (c : StressClient) : StressClient × List ClientPacket :=
  if !c.stressTestActive || decide (c.stressTestCurrentSeq ≥ c.stressTestConfig.messageCount) then
    (c, [])
  else
    let seq := u32 (c.stressTestCurrentSeq + 1)
    ({ c with
        stressTestCurrentSeq := seq
        waiting := c.waiting || decide (seq < c.stressTestConfig.messageCount) },
      [.stressData seq])

/-- `EndStressTest()` -/
def endStressTest (c : StressClient) : List ClientPacket :=
  if !c.stressTestActive then [] else [.stressEnd]

/-- `(_stressTestReceivedCount * 100) / messageCount`, in `uint32_t` -/
def progress (c : StressClient) : Nat :=
  u32 (c.stressTestReceivedCount * 100) / c.stressTestConfig.messageCount

/-- An echo is counted and the progress reported; both divide. `none`: the process ended. -/
def reportProgress (c : StressClient) : Option StressClient :=
  if c.stressTestConfig.messageCount = 0 then none
  else if c.progress % 10 = 0 ∧ c.progress ≠ c.lastReportedProgress then
    if c.stressTestReceivedCount = 0 then none
    else some { c with lastReportedProgress := c.progress }
  else some c

/-- `OnRecvPacket` -/
def onRecvPacket (c : StressClient) : ServerPacket → Option (StressClient × List ClientPacket)
  | .stressStart =>
      some { c with stressTestActive := true, stressTestCurrentSeq := 0 }.sendStressTestData
  | .stressData _ =>
      if !c.stressTestActive then some (c, [])
      else
        let counted := { c with stressTestReceivedCount := u32 (c.stressTestReceivedCount + 1) }
        counted.reportProgress.map fun c =>
          if c.stressTestReceivedCount ≥ c.stressTestConfig.messageCount then (c, c.endStressTest)
          else (c, [])
  | .stressResult _ => some ({ c with stressTestActive := false }, [])

/-- The wait on the timer is over. -/
def expire (c : StressClient) : Option StressClient :=
  if c.waiting then some { c with waiting := false, due := c.due + 1 } else none

/-- The handler of a wait that was over: `if (!ec && _stressTestActive) SendStressTestData();` -/
def onTimer (c : StressClient) : Option (StressClient × List ClientPacket) :=
  if c.due = 0 then none
  else
    let called := { c with due := c.due - 1 }
    some (if called.stressTestActive then called.sendStressTestData else (called, []))

end StressClient

/-! ## 3. The server -/

/-- The stress test of a `GameSession` -/
structure StressServer where
  stressTestActive : Bool
  stressTestConfig : StressTestStartData
  receivedMessages : Finset Nat
  lastReceivedSeq : Nat
  deriving DecidableEq

namespace StressServer

/-- `SendStressTestResult()` -/
def stressTestResult (g : StressServer) : StressTestResult :=
  let receivedMessages := u32 g.receivedMessages.card
  { totalMessages := g.stressTestConfig.messageCount
    receivedMessages
    lostMessages := u32 (g.lastReceivedSeq + 2 ^ 32 - receivedMessages) }

/-- `OnRecvPacket` -/
def onRecvPacket (g : StressServer) : ClientPacket → StressServer × List ServerPacket
  | .stressStart startData =>
      ({ stressTestActive := true
         stressTestConfig := startData
         receivedMessages := ∅
         lastReceivedSeq := 0 }, [.stressStart])
  | .stressData sequenceNumber =>
      if !g.stressTestActive then (g, [])
      else
        ({ g with
            receivedMessages := insert sequenceNumber g.receivedMessages
            lastReceivedSeq := max g.lastReceivedSeq sequenceNumber },
          [.stressData sequenceNumber])
  | .stressEnd =>
      if !g.stressTestActive then (g, [])
      else ({ g with stressTestActive := false }, [.stressResult g.stressTestResult])

end StressServer

/-! ## 4. The two of them -/

/-- The sessions, the packets on the way, and all that was sent so far. -/
structure StressTest where
  client : StressClient
  server : StressServer
  toServer : List ClientPacket
  toClient : List ServerPacket
  clientSent : List ClientPacket
  serverSent : List ServerPacket
  deriving DecidableEq

/-- What happens next: RequestStressTest is called, a packet arrives, the wait on the timer is over
    or its handler is called. -/
inductive StressStep where
  | request (startData : StressTestStartData)
  | toServer
  | toClient
  | expire
  | timer
  deriving DecidableEq

namespace StressTest

/-- The client is at `client` and has sent `packets`. -/
def fromClient (s : StressTest) (client : StressClient) (packets : List ClientPacket) :
    StressTest :=
  { s with client, toServer := s.toServer ++ packets, clientSent := s.clientSent ++ packets }

@[simp] theorem fromClient_nil (s : StressTest) (client : StressClient) :
    s.fromClient client [] = { s with client } := by
  unfold fromClient
  rw [List.append_nil, List.append_nil]

/-- The server is at `server` and has sent `packets`. -/
def fromServer (s : StressTest) (server : StressServer) (packets : List ServerPacket) :
    StressTest :=
  { s with server, toClient := s.toClient ++ packets, serverSent := s.serverSent ++ packets }

def next (s : StressTest) : StressStep → Option StressTest
  | .request startData =>
      let (client, packets) := s.client.requestStressTest startData
      some (s.fromClient client packets)
  | .toServer =>
      match s.toServer with
      | [] => none
      | p :: ps =>
          let (server, packets) := s.server.onRecvPacket p
          some ({ s with toServer := ps }.fromServer server packets)
  | .toClient =>
      match s.toClient with
      | [] => none
      | p :: ps => (s.client.onRecvPacket p).map fun (client, packets) =>
          { s with toClient := ps }.fromClient client packets
  | .expire => s.client.expire.map fun client => { s with client }
  | .timer => s.client.onTimer.map fun (client, packets) => s.fromClient client packets

theorem next_request {s s' : StressTest} {startData : StressTestStartData}
    (h : s.next (.request startData) = some s') :
    s' = s.fromClient (s.client.requestStressTest startData).1
      (s.client.requestStressTest startData).2 :=
  (Option.some.inj h).symm

/-- A packet that arrives at the server is the first on the way to it. -/
theorem next_toServer {s s' : StressTest} (h : s.next .toServer = some s') :
    ∃ p ps, s.toServer = p :: ps ∧
      s' = { s with toServer := ps }.fromServer (s.server.onRecvPacket p).1
        (s.server.onRecvPacket p).2 := by
  simp only [next] at h
  split at h
  · nomatch h
  · rename_i p ps heq
    exact ⟨p, ps, heq, (Option.some.inj h).symm⟩

/-- A packet that arrives at the client is the first on the way to it. -/
theorem next_toClient {s s' : StressTest} (h : s.next .toClient = some s') :
    ∃ p ps r, s.toClient = p :: ps ∧ s.client.onRecvPacket p = some r ∧
      s' = { s with toClient := ps }.fromClient r.1 r.2 := by
  simp only [next] at h
  split at h
  · nomatch h
  · rename_i p ps heq
    obtain ⟨r, hr, rfl⟩ := Option.map_eq_some_iff.mp h
    exact ⟨p, ps, r, heq, hr, rfl⟩

theorem next_expire {s s' : StressTest} (h : s.next .expire = some s') :
    ∃ c, s.client.expire = some c ∧ s' = { s with client := c } := by
  obtain ⟨c, hc, rfl⟩ := Option.map_eq_some_iff.mp h
  exact ⟨c, hc, rfl⟩

theorem next_timer {s s' : StressTest} (h : s.next .timer = some s') :
    ∃ r, s.client.onTimer = some r ∧ s' = s.fromClient r.1 r.2 := by
  obtain ⟨r, hr, rfl⟩ := Option.map_eq_some_iff.mp h
  exact ⟨r, hr, rfl⟩

/-- Nothing was sent yet. -/
def start (client : StressClient) (server : StressServer) : StressTest :=
  ⟨client, server, [], [], [], []⟩

/-- Both sides are idle. -/
def Idle (s : StressTest) : Prop :=
  s.client.stressTestActive = false ∧ s.server.stressTestActive = false

/-- No packet is on the way and no timer pending. -/
def Quiet (s : StressTest) : Prop :=
  s.toServer = [] ∧ s.toClient = [] ∧ s.client.waiting = false ∧ s.client.due = 0

end StressTest

end ServerCore
