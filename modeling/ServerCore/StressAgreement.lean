/-
  File:      ServerCore/StressAgreement.lean
  Subject:   What the two sides of one stress test send each other, and that it ends.

  From an idle state, one request and any order of the deliveries and of the timer: the client
  sends the start, the messages 1 to N and the end, the server the confirmation, the echoes 1 to N
  and one result that has lost nothing; at any moment each has sent a first part of that. A test
  is in one of six phases (`Phase`), every step goes from one to the same or the next, and the
  work left becomes less in each (`Phase.step`). So every run is finite, and where no step is left
  both sides are done (`stress_test_agreement`).
-/
import ServerCore.StressTest
import Mathlib.Algebra.Ring.Nat

namespace ServerCore

open Trans

/-! ## 1. The numbers of the messages -/

/-- The numbers from `a + 1` to `b`. -/
def seqs (a b : Nat) : List Nat := List.range' (a + 1) (b - a)

theorem seqs_self (a : Nat) : seqs a a = [] := by
  unfold seqs
  rw [Nat.sub_self]
  rfl

theorem seqs_cons {a b : Nat} (h : a < b) : seqs a b = (a + 1) :: seqs (a + 1) b := by
  unfold seqs
  rw [show b - a = b - (a + 1) + 1 by omega, List.range'_succ]

theorem seqs_snoc {a b : Nat} (h : a ≤ b) : seqs a (b + 1) = seqs a b ++ [b + 1] := by
  unfold seqs
  rw [show b + 1 - a = b - a + 1 by omega, List.range'_concat]
  congr 2
  omega

theorem isPrefix_seqs {a b : Nat} (h : a ≤ b) : seqs 0 a <+: seqs 0 b := by
  induction h with
  | refl => exact List.prefix_refl _
  | step hab ih =>
      rw [seqs_snoc (Nat.zero_le _)]
      exact ih.trans (List.prefix_append _ _)

/-- The messages from `a + 1` to `b`. -/
def messages (a b : Nat) : List ClientPacket := (seqs a b).map .stressData

/-- The echoes from `a + 1` to `b`. -/
def echoes (a b : Nat) : List ServerPacket := (seqs a b).map .stressData

@[simp] theorem messages_self (a : Nat) : messages a a = [] := by
  unfold messages
  rw [seqs_self]
  rfl

@[simp] theorem echoes_self (a : Nat) : echoes a a = [] := by
  unfold echoes
  rw [seqs_self]
  rfl

theorem messages_cons {a b : Nat} (h : a < b) :
    messages a b = .stressData (a + 1) :: messages (a + 1) b := by
  unfold messages
  rw [seqs_cons h]
  rfl

theorem echoes_cons {a b : Nat} (h : a < b) :
    echoes a b = .stressData (a + 1) :: echoes (a + 1) b := by
  unfold echoes
  rw [seqs_cons h]
  rfl

theorem messages_snoc {a b : Nat} (h : a ≤ b) :
    messages a (b + 1) = messages a b ++ [.stressData (b + 1)] := by
  unfold messages
  rw [seqs_snoc h, List.map_append]
  rfl

theorem echoes_snoc {a b : Nat} (h : a ≤ b) :
    echoes a (b + 1) = echoes a b ++ [.stressData (b + 1)] := by
  unfold echoes
  rw [seqs_snoc h, List.map_append]
  rfl

/-! ## 2. The handlers while a test runs -/

namespace StressClient

theorem sendStressTestData_of_lt {c : StressClient} (hactive : c.stressTestActive = true)
    (h : c.stressTestCurrentSeq < c.stressTestConfig.messageCount) :
    c.sendStressTestData =
      ({ c with
          stressTestCurrentSeq := c.stressTestCurrentSeq + 1
          waiting := c.waiting ||
            decide (c.stressTestCurrentSeq + 1 < c.stressTestConfig.messageCount) },
        [.stressData (c.stressTestCurrentSeq + 1)]) := by
  have hseq : u32 (c.stressTestCurrentSeq + 1) = c.stressTestCurrentSeq + 1 :=
    Nat.mod_eq_of_lt (lt_of_le_of_lt h c.stressTestConfig.messageCount_lt)
  unfold sendStressTestData
  rw [if_neg (by simp [hactive, h]), hseq]

theorem sendStressTestData_of_le {c : StressClient}
    (h : c.stressTestConfig.messageCount ≤ c.stressTestCurrentSeq) :
    c.sendStressTestData = (c, []) := by
  unfold sendStressTestData
  rw [if_pos (by simp [h])]

/-- A confirmation of a test with messages: the first of them is sent. -/
theorem onRecvPacket_start {c : StressClient} (h : 1 ≤ c.stressTestConfig.messageCount) :
    c.onRecvPacket .stressStart =
      some ({ c with
          stressTestActive := true
          stressTestCurrentSeq := 1
          waiting := c.waiting || decide (1 < c.stressTestConfig.messageCount) },
        [.stressData 1]) :=
  congrArg some (sendStressTestData_of_lt
    (c := { c with stressTestActive := true, stressTestCurrentSeq := 0 }) rfl h)

/-- What was reported last is the progress, wherever that is a multiple of ten. -/
theorem reportProgress_eq_some {c c' : StressClient} (h : c.reportProgress = some c') :
    c' = { c with
      lastReportedProgress :=
        if c.progress % 10 = 0 then c.progress else c.lastReportedProgress } := by
  unfold reportProgress at h
  split at h
  · nomatch h
  · split at h
    · rename_i hprints
      split at h
      · nomatch h
      · rw [if_pos hprints.1]
        exact (Option.some.inj h).symm
    · rename_i hsilent
      obtain rfl := Option.some.inj h
      split
      · rename_i hten
        rw [Decidable.not_not.mp fun hne => hsilent ⟨hten, hne⟩]
      · rfl

/-- Where neither divisor is 0 the process goes on. -/
theorem reportProgress_ne_none {c : StressClient}
    (hcount : 0 < c.stressTestConfig.messageCount) (hreceived : 0 < c.stressTestReceivedCount) :
    c.reportProgress ≠ none := by
  unfold reportProgress
  rw [if_neg (Nat.ne_of_gt hcount)]
  split
  · rw [if_neg (Nat.ne_of_gt hreceived)]
    exact Option.some_ne_none _
  · exact Option.some_ne_none _

theorem reportProgress_eq {c : StressClient} (hcount : 1 ≤ c.stressTestConfig.messageCount)
    (hreceived : 1 ≤ c.stressTestReceivedCount) :
    ∃ p, c.reportProgress = some { c with lastReportedProgress := p } := by
  obtain ⟨c', hc'⟩ := Option.ne_none_iff_exists'.mp (reportProgress_ne_none hcount hreceived)
  exact ⟨_, hc'.trans (congrArg some (reportProgress_eq_some hc'))⟩

/-- An active client counts an echo, and ends the test where there are enough. -/
theorem onRecvPacket_of_active {c : StressClient} (hactive : c.stressTestActive = true)
    (n : Nat) : c.onRecvPacket (.stressData n) =
      { c with stressTestReceivedCount := u32 (c.stressTestReceivedCount + 1) }.reportProgress.map
        fun c : StressClient =>
          if c.stressTestReceivedCount ≥ c.stressTestConfig.messageCount then
            (c, c.endStressTest) else (c, []) := by
  unfold onRecvPacket
  dsimp only
  rw [if_neg (by rw [hactive]; decide)]

theorem endStressTest_of_active {c : StressClient} (hactive : c.stressTestActive = true) :
    c.endStressTest = [.stressEnd] :=
  if_neg (by rw [hactive]; decide)

/-- An echo, while there are still echoes to come. -/
theorem onRecvPacket_echo {c : StressClient} (hactive : c.stressTestActive = true)
    (h : c.stressTestReceivedCount < c.stressTestConfig.messageCount) (n : Nat) :
    ∃ p, c.onRecvPacket (.stressData n) =
      some ({ c with
          stressTestReceivedCount := c.stressTestReceivedCount + 1
          lastReportedProgress := p },
        if c.stressTestReceivedCount + 1 = c.stressTestConfig.messageCount then [.stressEnd]
        else []) := by
  have hcount : u32 (c.stressTestReceivedCount + 1) = c.stressTestReceivedCount + 1 :=
    Nat.mod_eq_of_lt (lt_of_le_of_lt h c.stressTestConfig.messageCount_lt)
  obtain ⟨p, hp⟩ := reportProgress_eq
    (c := { c with stressTestReceivedCount := c.stressTestReceivedCount + 1 })
    (Nat.lt_of_le_of_lt (Nat.zero_le _) h) (Nat.le_add_left 1 _)
  refine ⟨p, ?_⟩
  rw [onRecvPacket_of_active hactive, hcount, hp, Option.map_some]
  dsimp only
  congr 1
  split
  · rw [if_pos (by omega), endStressTest_of_active]
    exact hactive
  · rw [if_neg (by omega)]

theorem expire_eq_some {c c' : StressClient} (h : c.expire = some c') :
    c.waiting = true ∧ c' = { c with waiting := false, due := c.due + 1 } := by
  unfold expire at h
  split at h
  · rename_i hwaiting
    exact ⟨hwaiting, (Option.some.inj h).symm⟩
  · nomatch h

theorem onTimer_eq_some {c : StressClient} {r : StressClient × List ClientPacket}
    (h : c.onTimer = some r) :
    0 < c.due ∧ r = if c.stressTestActive then { c with due := c.due - 1 }.sendStressTestData
      else ({ c with due := c.due - 1 }, []) := by
  unfold onTimer at h
  split at h
  · nomatch h
  · rename_i hdue
    exact ⟨Nat.pos_of_ne_zero hdue, (Option.some.inj h).symm⟩

/-- The timer of a client that has nothing to send. -/
theorem onTimer_of_done {c : StressClient} {r : StressClient × List ClientPacket}
    (h : c.onTimer = some r) (hdone : c.stressTestActive = false ∨
      c.stressTestConfig.messageCount ≤ c.stressTestCurrentSeq) :
    0 < c.due ∧ r = ({ c with due := c.due - 1 }, []) := by
  obtain ⟨hdue, rfl⟩ := onTimer_eq_some h
  refine ⟨hdue, ?_⟩
  split
  · rename_i hactive
    rw [hactive] at hdone
    exact sendStressTestData_of_le (hdone.resolve_left Bool.noConfusion)
  · rfl

end StressClient

namespace StressServer

/-- The server that is in a test echoes a message. -/
theorem onRecvPacket_data {g : StressServer} (hactive : g.stressTestActive = true) (n : Nat) :
    g.onRecvPacket (.stressData n) =
      ({ g with
          receivedMessages := insert n g.receivedMessages
          lastReceivedSeq := max g.lastReceivedSeq n }, [.stressData n]) :=
  if_neg (by rw [hactive]; decide)

/-- ... and answers its end with the result. -/
theorem onRecvPacket_end {g : StressServer} (hactive : g.stressTestActive = true) :
    g.onRecvPacket .stressEnd =
      ({ g with stressTestActive := false }, [.stressResult g.stressTestResult]) :=
  if_neg (by rw [hactive]; decide)

end StressServer

/-! ## 3. The phases of a test -/

/-- What the client sends in a test. -/
def clientScript (d : StressTestStartData) : List ClientPacket :=
  .stressStart d :: messages 0 d.messageCount ++ [.stressEnd]

/-- What the server sends in a test. -/
def serverScript (d : StressTestStartData) : List ServerPacket :=
  .stressStart :: echoes 0 d.messageCount ++ [.stressResult ⟨d.messageCount, d.messageCount, 0⟩]

namespace StressTest

/-- The client has asked for the test `d`, and waits. -/
structure Asked (d : StressTestStartData) (c : StressClient) : Prop where
  active : c.stressTestActive = false
  config : c.stressTestConfig = d
  seq : c.stressTestCurrentSeq = 0
  received : c.stressTestReceivedCount = 0

/-- The client is in the test `d`; the next message comes on the timer. -/
structure Sends (d : StressTestStartData) (c : StressClient) : Prop where
  active : c.stressTestActive = true
  config : c.stressTestConfig = d
  seq : c.stressTestCurrentSeq ≤ d.messageCount
  timer : c.stressTestCurrentSeq < d.messageCount → c.waiting = true ∨ 0 < c.due

/-- The server is in the test `d`; it has received the messages up to `a`. -/
structure Receives (d : StressTestStartData) (g : StressServer) (a : Nat) : Prop where
  active : g.stressTestActive = true
  config : g.stressTestConfig = d
  received : g.receivedMessages = Finset.Icc 1 a
  last : g.lastReceivedSeq = a

/-- The client has sent everything of the test `d`. -/
structure Sent (d : StressTestStartData) (c : StressClient) : Prop where
  config : c.stressTestConfig = d
  seq : c.stressTestCurrentSeq = d.messageCount

/-- **The phases of the test `d`.** -/
inductive Phase (d : StressTestStartData) : StressTest → Prop where
  | requested (c : StressClient) (g : StressServer) (hc : Asked d c)
      (hg : g.stressTestActive = false) :
      Phase d ⟨c, g, [.stressStart d], [], [.stressStart d], []⟩
  | confirmed (c : StressClient) (g : StressServer) (hc : Asked d c) (hg : Receives d g 0) :
      Phase d ⟨c, g, [], [.stressStart], [.stressStart d], [.stressStart]⟩
  | running (c : StressClient) (g : StressServer) (a : Nat) (hc : Sends d c)
      (hg : Receives d g a) (hr : c.stressTestReceivedCount < d.messageCount)
      (hra : c.stressTestReceivedCount ≤ a) (ha : a ≤ c.stressTestCurrentSeq) :
      Phase d ⟨c, g, messages a c.stressTestCurrentSeq, echoes c.stressTestReceivedCount a,
        .stressStart d :: messages 0 c.stressTestCurrentSeq, .stressStart :: echoes 0 a⟩
  | ended (c : StressClient) (g : StressServer) (hc : Sent d c)
      (hg : Receives d g d.messageCount) :
      Phase d ⟨c, g, [.stressEnd], [], clientScript d,
        .stressStart :: echoes 0 d.messageCount⟩
  | resulted (c : StressClient) (g : StressServer) (hc : Sent d c)
      (hg : g.stressTestActive = false) :
      Phase d ⟨c, g, [], [.stressResult ⟨d.messageCount, d.messageCount, 0⟩], clientScript d,
        serverScript d⟩
  | finished (c : StressClient) (g : StressServer) (hc : Sent d c)
      (hidle : c.stressTestActive = false) (hg : g.stressTestActive = false) :
      Phase d ⟨c, g, [], [], clientScript d, serverScript d⟩

/-- The steps without a further request. -/
def Unrequested (_ : StressTest) : StressStep → Prop
  | .request _ => False
  | _ => True

instance (s : StressTest) : ∀ l, Decidable (s.Unrequested l)
  | .request _ => .isFalse id
  | .toServer => .isTrue trivial
  | .toClient => .isTrue trivial
  | .expire => .isTrue trivial
  | .timer => .isTrue trivial

/-- The steps a packet from the client still causes, at most. -/
def clientWork : ClientPacket → Nat
  | .stressStart _ => 2
  | .stressData _ => 4
  | .stressEnd => 2

/-- The steps a packet from the server still causes, at most. -/
def serverWork : ServerPacket → Nat
  | .stressStart => 1
  | .stressData _ => 3
  | .stressResult _ => 1

/-- The steps of the messages still to be sent and of the timer. -/
def timerWork (c : StressClient) : Nat :=
  7 * (c.stressTestConfig.messageCount - c.stressTestCurrentSeq) + (if c.waiting then 2 else 0) +
    c.due

/-- **The steps that are left**, at most. -/
def work (s : StressTest) : Nat :=
  (s.toServer.map clientWork).sum + (s.toClient.map serverWork).sum + timerWork s.client

/-! ## 4. One step -/

variable {d : StressTestStartData} {s s' : StressTest}

theorem work_fromServer_lt {p : ClientPacket} {ps : List ClientPacket}
    (hp : s.toServer = p :: ps) (g : StressServer) (qs : List ServerPacket)
    (h : (qs.map serverWork).sum < clientWork p) :
    ({ s with toServer := ps }.fromServer g qs).work < s.work := by
  unfold work fromServer
  dsimp only
  rw [hp, List.map_cons, List.sum_cons, List.map_append, List.sum_append]
  omega

theorem work_fromClient_lt {p : ServerPacket} {ps : List ServerPacket}
    (hp : s.toClient = p :: ps) (c : StressClient) (qs : List ClientPacket)
    (h : (qs.map clientWork).sum + timerWork c < serverWork p + timerWork s.client) :
    ({ s with toClient := ps }.fromClient c qs).work < s.work := by
  unfold work fromClient
  dsimp only
  rw [hp, List.map_cons, List.sum_cons, List.map_append, List.sum_append]
  omega

theorem work_timer_lt {c : StressClient} {qs : List ClientPacket}
    (h : timerWork c + (qs.map clientWork).sum < timerWork s.client) :
    (s.fromClient c qs).work < s.work := by
  unfold work fromClient
  dsimp only
  rw [List.map_append, List.sum_append]
  omega

/-- The client while it sends, at a timer handler. -/
theorem Sends.onTimer {c : StressClient} (hc : Sends d c)
    {r : StressClient × List ClientPacket} (h : c.onTimer = some r) :
    Sends d r.1 ∧ r.1.stressTestReceivedCount = c.stressTestReceivedCount ∧
      timerWork r.1 + (r.2.map clientWork).sum < timerWork c ∧
      ∃ k, c.stressTestCurrentSeq ≤ k ∧ r.1.stressTestCurrentSeq = k ∧
        ∀ a ≤ c.stressTestCurrentSeq, messages a k = messages a c.stressTestCurrentSeq ++ r.2 := by
  obtain ⟨hdue, rfl⟩ := StressClient.onTimer_eq_some h
  rw [if_pos hc.active]
  by_cases hlt : c.stressTestCurrentSeq < c.stressTestConfig.messageCount
  · rw [StressClient.sendStressTestData_of_lt (c := { c with due := c.due - 1 }) hc.active hlt]
    refine ⟨⟨hc.active, hc.config, ?_, fun hnext => ?_⟩, rfl, ?_, _, Nat.le_succ _, rfl,
      fun a ha => messages_snoc ha⟩
    · rw [← hc.config]
      exact hlt
    · left
      dsimp only at hnext ⊢
      rw [← hc.config] at hnext
      rw [decide_eq_true hnext, Bool.or_true]
    · unfold timerWork
      dsimp only
      rw [List.map_singleton, List.sum_singleton]
      unfold clientWork
      split <;> split <;> omega
  · rw [StressClient.sendStressTestData_of_le (c := { c with due := c.due - 1 }) (by
      dsimp only
      omega)]
    refine ⟨⟨hc.active, hc.config, hc.seq, fun hnext => ?_⟩, rfl, ?_, _, Nat.le_refl _, rfl,
      fun a ha => (List.append_nil _).symm⟩
    · rw [← hc.config] at hnext
      exact absurd hnext hlt
    · unfold timerWork
      dsimp only
      rw [List.map_nil, List.sum_nil]
      omega

/-- The client when the server has confirmed. -/
theorem Asked.onRecvPacket {c : StressClient} (hN : 1 ≤ d.messageCount) (hc : Asked d c)
    {r : StressClient × List ClientPacket} (h : c.onRecvPacket .stressStart = some r) :
    Sends d r.1 ∧ r.1.stressTestCurrentSeq = 1 ∧ r.1.stressTestReceivedCount = 0 ∧
      r.2 = [.stressData 1] ∧
      (r.2.map clientWork).sum + timerWork r.1 < serverWork .stressStart + timerWork c := by
  have hstart := StressClient.onRecvPacket_start (c := c) (by
    rw [hc.config]
    exact hN)
  obtain rfl := Option.some.inj (hstart.symm.trans h)
  refine ⟨⟨rfl, hc.config, hN, fun hlt => ?_⟩, rfl, hc.received, rfl, ?_⟩
  · left
    dsimp only at hlt ⊢
    rw [hc.config, decide_eq_true hlt, Bool.or_true]
  · show 4 + 0 + timerWork _ < 1 + timerWork c
    unfold timerWork
    dsimp only
    rw [hc.config, hc.seq]
    split <;> split <;> omega

/-- The client while it sends, at an echo. -/
theorem Sends.onRecvPacket {c : StressClient} (hc : Sends d c)
    (hcount : c.stressTestReceivedCount < d.messageCount) {n : Nat}
    {r : StressClient × List ClientPacket} (h : c.onRecvPacket (.stressData n) = some r) :
    Sends d r.1 ∧ r.1.stressTestCurrentSeq = c.stressTestCurrentSeq ∧
      r.1.stressTestReceivedCount = c.stressTestReceivedCount + 1 ∧ timerWork r.1 = timerWork c ∧
      r.2 = if c.stressTestReceivedCount + 1 = d.messageCount then [.stressEnd] else [] := by
  obtain ⟨p, hecho⟩ := StressClient.onRecvPacket_echo hc.active (by
    rw [hc.config]
    exact hcount) n
  obtain rfl := Option.some.inj (hecho.symm.trans h)
  exact ⟨⟨hc.active, hc.config, hc.seq, hc.timer⟩, rfl, rfl, rfl, by rw [hc.config]⟩

/-- The server while a test runs, at the next message. -/
theorem Receives.onRecvPacket {g : StressServer} {a : Nat} (hg : Receives d g a) :
    Receives d (g.onRecvPacket (.stressData (a + 1))).1 (a + 1) ∧
      (g.onRecvPacket (.stressData (a + 1))).2 = [.stressData (a + 1)] := by
  rw [StressServer.onRecvPacket_data hg.active]
  refine ⟨⟨hg.active, hg.config, ?_, ?_⟩, rfl⟩
  · dsimp only
    rw [hg.received]
    ext n
    simp only [Finset.mem_insert, Finset.mem_Icc]
    omega
  · dsimp only
    rw [hg.last]
    omega

/-- The result of a test that lost nothing. -/
theorem Receives.result {g : StressServer} (hg : Receives d g d.messageCount) :
    g.stressTestResult = ⟨d.messageCount, d.messageCount, 0⟩ := by
  have hlt := d.messageCount_lt
  have hcard : g.receivedMessages.card = d.messageCount := by
    rw [hg.received, Nat.card_Icc, Nat.add_sub_cancel]
  unfold StressServer.stressTestResult
  dsimp only
  rw [hcard, hg.config, hg.last]
  unfold u32
  congr 1
  · omega
  · omega

/-- **A packet arrives at the server.** -/
theorem Phase.toServer (h : Phase d s) (hs : s.next .toServer = some s') :
    Phase d s' ∧ s'.work < s.work := by
  obtain ⟨p, ps, hp, rfl⟩ := next_toServer hs
  cases h with
  | requested c g hc hg =>
      have hwork := work_fromServer_lt hp (g.onRecvPacket p).1 [.stressStart]
      cases hp
      exact ⟨.confirmed c _ hc ⟨rfl, rfl, rfl, rfl⟩, hwork Nat.one_lt_two⟩
  | confirmed c g hc hg => nomatch hp
  | running c g a hc hg hr hra ha =>
      rcases Nat.eq_or_lt_of_le ha with rfl | hlt
      · rw [messages_self] at hp
        nomatch hp
      · have hfirst := hp
        rw [messages_cons hlt] at hfirst
        cases hfirst
        obtain ⟨hg', hecho⟩ := hg.onRecvPacket
        refine ⟨?_, work_fromServer_lt hp _ _ ?_⟩
        · have hphase := Phase.running c _ (a + 1) hc hg' hr (by omega) hlt
          rw [echoes_snoc hra, echoes_snoc (Nat.zero_le a), ← hecho] at hphase
          exact hphase
        · rw [hecho]
          exact Nat.lt_succ_self 3
  | ended c g hc hg =>
      have hresult := StressServer.onRecvPacket_end hg.active
      rw [hg.result] at hresult
      have hwork := work_fromServer_lt hp { g with stressTestActive := false }
        [.stressResult ⟨d.messageCount, d.messageCount, 0⟩]
      cases hp
      rw [hresult]
      exact ⟨.resulted c _ hc rfl, hwork Nat.one_lt_two⟩
  | resulted c g hc hg => nomatch hp
  | finished c g hc hidle hg => nomatch hp

/-- **A packet arrives at the client.** -/
theorem Phase.toClient (hN : 1 ≤ d.messageCount) (h : Phase d s)
    (hs : s.next .toClient = some s') : Phase d s' ∧ s'.work < s.work := by
  obtain ⟨p, ps, r, hp, hr, rfl⟩ := next_toClient hs
  cases h with
  | requested c g hc hg => nomatch hp
  | confirmed c g hc hg =>
      have hwork := work_fromClient_lt hp r.1 r.2
      cases hp
      obtain ⟨hc', hseq, hreceived, hsent, hlt⟩ := hc.onRecvPacket hN hr
      have hphase := Phase.running r.1 g 0 hc' hg (by omega) (by omega) (by omega)
      rw [hseq, hreceived] at hphase
      refine ⟨?_, hwork hlt⟩
      rw [hsent]
      exact hphase
  | running c g a hc hg hcount hra ha =>
      rcases Nat.eq_or_lt_of_le hra with hend | hlt
      · rw [hend, echoes_self] at hp
        nomatch hp
      · have hfirst := hp
        rw [echoes_cons hlt] at hfirst
        cases hfirst
        obtain ⟨hc', hseq, hreceived, hsame, hsent⟩ := hc.onRecvPacket hcount hr
        refine ⟨?_, work_fromClient_lt hp _ _ ?_⟩
        · have hle := hc.seq
          by_cases hlast : c.stressTestReceivedCount + 1 = d.messageCount
          · obtain rfl : a = d.messageCount := by omega
            have hall : c.stressTestCurrentSeq = d.messageCount := by omega
            rw [hsent, if_pos hlast]
            show Phase d ⟨r.1, g, messages d.messageCount c.stressTestCurrentSeq ++ [.stressEnd],
              echoes (c.stressTestReceivedCount + 1) d.messageCount,
              (.stressStart d :: messages 0 c.stressTestCurrentSeq) ++ [.stressEnd],
              .stressStart :: echoes 0 d.messageCount⟩
            rw [hall, hlast, messages_self, echoes_self]
            exact .ended r.1 g ⟨hc'.config, hseq.trans hall⟩ hg
          · rw [if_neg hlast] at hsent
            have hphase := Phase.running r.1 g a hc' hg (by omega) (by omega) (by omega)
            rw [hseq, hreceived] at hphase
            rw [hsent, fromClient_nil]
            exact hphase
        · rw [hsame, hsent]
          split
          · exact Nat.add_lt_add_right (Nat.lt_succ_self 2) _
          · exact Nat.add_lt_add_right (Nat.zero_lt_succ 2) _
  | ended c g hc hg => nomatch hp
  | resulted c g hc hg =>
      have hwork := work_fromClient_lt hp { c with stressTestActive := false } []
      cases hp
      cases hr
      rw [fromClient_nil] at hwork ⊢
      refine ⟨.finished _ g ⟨hc.config, hc.seq⟩ rfl hg, hwork ?_⟩
      show 0 + timerWork c < 1 + timerWork c
      omega
  | finished c g hc hidle hg => nomatch hp

/-- Only the timer of the client differs. -/
theorem timerWork_expire {c c' : StressClient} (h : c.expire = some c') :
    timerWork c' < timerWork c := by
  obtain ⟨hwaiting, rfl⟩ := StressClient.expire_eq_some h
  unfold timerWork
  dsimp only
  rw [hwaiting, if_pos rfl, if_neg Bool.false_ne_true]
  omega

/-- **The timer matters in one phase only**: in the others nothing is sent on it, and the phase is
    the same however it stands. -/
theorem Phase.running_or (h : Phase d s) :
    (∃ c g a, Sends d c ∧ Receives d g a ∧ c.stressTestReceivedCount < d.messageCount ∧
        c.stressTestReceivedCount ≤ a ∧ a ≤ c.stressTestCurrentSeq ∧
        s = ⟨c, g, messages a c.stressTestCurrentSeq, echoes c.stressTestReceivedCount a,
          .stressStart d :: messages 0 c.stressTestCurrentSeq, .stressStart :: echoes 0 a⟩) ∨
      ((s.client.stressTestActive = false ∨
          s.client.stressTestConfig.messageCount ≤ s.client.stressTestCurrentSeq) ∧
        ∀ waiting due, Phase d { s with client := { s.client with waiting, due } }) := by
  cases h with
  | requested c g hc hg =>
      exact .inr ⟨.inl hc.active, fun _ _ =>
        .requested _ g ⟨hc.active, hc.config, hc.seq, hc.received⟩ hg⟩
  | confirmed c g hc hg =>
      exact .inr ⟨.inl hc.active, fun _ _ =>
        .confirmed _ g ⟨hc.active, hc.config, hc.seq, hc.received⟩ hg⟩
  | running c g a hc hg hr hra ha => exact .inl ⟨c, g, a, hc, hg, hr, hra, ha, rfl⟩
  | ended c g hc hg =>
      exact .inr ⟨.inr (Nat.le_of_eq (by rw [hc.config, hc.seq])), fun _ _ =>
        .ended _ g ⟨hc.config, hc.seq⟩ hg⟩
  | resulted c g hc hg =>
      exact .inr ⟨.inr (Nat.le_of_eq (by rw [hc.config, hc.seq])), fun _ _ =>
        .resulted _ g ⟨hc.config, hc.seq⟩ hg⟩
  | finished c g hc hidle hg =>
      exact .inr ⟨.inl hidle, fun _ _ => .finished _ g ⟨hc.config, hc.seq⟩ hidle hg⟩

/-- **The wait on the timer is over.** -/
theorem Phase.expire (h : Phase d s) (hs : s.next .expire = some s') :
    Phase d s' ∧ s'.work < s.work := by
  obtain ⟨c', hc', rfl⟩ := next_expire hs
  refine ⟨?_, Nat.add_lt_add_left (timerWork_expire hc') _⟩
  obtain ⟨-, rfl⟩ := StressClient.expire_eq_some hc'
  rcases h.running_or with ⟨c, g, a, hc, hg, hr, hra, ha, rfl⟩ | ⟨-, h'⟩
  · exact .running { c with waiting := false, due := c.due + 1 } g a
      ⟨hc.active, hc.config, hc.seq, fun _ => .inr (Nat.succ_pos _)⟩ hg hr hra ha
  · exact h' false (s.client.due + 1)

/-- **A handler of the timer is called.** -/
theorem Phase.timer (h : Phase d s) (hs : s.next .timer = some s') :
    Phase d s' ∧ s'.work < s.work := by
  obtain ⟨r, hr, rfl⟩ := next_timer hs
  rcases h.running_or with ⟨c, g, a, hc, hg, hcount, hra, ha, rfl⟩ | ⟨hdone, h'⟩
  · obtain ⟨hc', hreceived, hlt, k, hk, hseq, hsent⟩ := hc.onTimer hr
    refine ⟨?_, work_timer_lt hlt⟩
    have hphase := Phase.running r.1 g a hc' hg (by omega) (by omega) (by omega)
    rw [hseq, hreceived, hsent a ha, hsent 0 (Nat.zero_le _)] at hphase
    exact hphase
  · obtain ⟨hdue, rfl⟩ := StressClient.onTimer_of_done hr hdone
    refine ⟨?_, work_timer_lt ?_⟩
    · rw [fromClient_nil]
      exact h' s.client.waiting (s.client.due - 1)
    · unfold timerWork
      dsimp only
      rw [List.map_nil, List.sum_nil]
      omega

/-- **One step**: the test is in the same phase or the next, and less is left. -/
theorem Phase.step (hN : 1 ≤ d.messageCount) (h : Phase d s) {l : StressStep}
    (hl : s.Unrequested l) (hs : s.next l = some s') : Phase d s' ∧ s'.work < s.work := by
  cases l with
  | request startData => exact hl.elim
  | toServer => exact h.toServer hs
  | toClient => exact h.toClient hN hs
  | expire => exact h.expire hs
  | timer => exact h.timer hs

/-! ## 5. The runs -/

/-- **What both sides have sent is a first part of the test's**, and once the result has arrived
    both are idle. -/
structure Agrees (d : StressTestStartData) (s : StressTest) : Prop where
  client : s.clientSent <+: clientScript d
  server : s.serverSent <+: serverScript d
  idle : s.serverSent = serverScript d → s.toClient = [] → s.Idle

/-- **The test is over**: all of it was sent, nothing is on the way, and both sides are idle. -/
structure Over (d : StressTestStartData) (s : StressTest) : Prop where
  client : s.clientSent = clientScript d
  server : s.serverSent = serverScript d
  toServer : s.toServer = []
  toClient : s.toClient = []
  idle : s.Idle

theorem isPrefix_messages {k : Nat} (h : k ≤ d.messageCount) :
    .stressStart d :: messages 0 k <+: clientScript d := by
  refine List.IsPrefix.trans ?_ (List.prefix_append _ _)
  exact List.cons_prefix_cons.mpr ⟨rfl, (isPrefix_seqs h).map _⟩

theorem isPrefix_echoes {k : Nat} (h : k ≤ d.messageCount) :
    .stressStart :: echoes 0 k <+: serverScript d := by
  refine List.IsPrefix.trans ?_ (List.prefix_append _ _)
  exact List.cons_prefix_cons.mpr ⟨rfl, (isPrefix_seqs h).map _⟩

/-- The result is the last packet of the test. -/
theorem echoes_ne_serverScript {k : Nat} (h : k ≤ d.messageCount) :
    .stressStart :: echoes 0 k ≠ serverScript d := by
  intro e
  have hlen := congrArg List.length e
  simp [serverScript, echoes, seqs] at hlen
  omega

theorem Phase.agrees (h : Phase d s) : Agrees d s := by
  cases h with
  | requested c g hc hg =>
      have hpre := isPrefix_messages (Nat.zero_le d.messageCount)
      rw [messages_self] at hpre
      exact ⟨hpre, List.nil_prefix, fun e => nomatch e⟩
  | confirmed c g hc hg =>
      have hpre := isPrefix_messages (Nat.zero_le d.messageCount)
      have hpre' := isPrefix_echoes (Nat.zero_le d.messageCount)
      rw [messages_self] at hpre
      rw [echoes_self] at hpre'
      exact ⟨hpre, hpre', fun _ e => nomatch e⟩
  | running c g a hc hg hr hra ha =>
      have hle := hc.seq
      exact ⟨isPrefix_messages hle, isPrefix_echoes (by omega),
        fun e => absurd e (echoes_ne_serverScript (by omega))⟩
  | ended c g hc hg =>
      exact ⟨List.prefix_refl _, isPrefix_echoes (Nat.le_refl _),
        fun e => absurd e (echoes_ne_serverScript (Nat.le_refl _))⟩
  | resulted c g hc hg => exact ⟨List.prefix_refl _, List.prefix_refl _, fun _ e => nomatch e⟩
  | finished c g hc hidle hg =>
      exact ⟨List.prefix_refl _, List.prefix_refl _, fun _ _ => ⟨hidle, hg⟩⟩

/-- **A phase from which no step leads is the last one.** -/
theorem Phase.over (h : Phase d s) (hend : ∀ l, s.Unrequested l → s.next l = none) : Over d s := by
  cases h with
  | requested c g hc hg => nomatch hend .toServer trivial
  | confirmed c g hc hg => nomatch hend .toClient trivial
  | running c g a hc hg hr hra ha =>
      exfalso
      rcases Nat.eq_or_lt_of_le hra with rfl | hecho
      · rcases Nat.eq_or_lt_of_le ha with hall | hmessage
        · -- nothing is on the way, so the timer has the next message
          rcases hc.timer (hall ▸ hr) with hwaiting | hdue
          · have hexpire := hend .expire trivial
            unfold next StressClient.expire at hexpire
            dsimp only at hexpire
            rw [if_pos hwaiting] at hexpire
            nomatch hexpire
          · have htimer := hend .timer trivial
            unfold next StressClient.onTimer at htimer
            dsimp only at htimer
            rw [if_neg (by omega)] at htimer
            nomatch htimer
        · have harrives := hend .toServer trivial
          unfold next at harrives
          dsimp only at harrives
          rw [messages_cons hmessage] at harrives
          nomatch harrives
      · have harrives := hend .toClient trivial
        obtain ⟨p, hp⟩ := StressClient.onRecvPacket_echo hc.active (by
          rw [hc.config]
          exact hr) (c.stressTestReceivedCount + 1)
        unfold next at harrives
        dsimp only at harrives
        rw [echoes_cons hecho] at harrives
        dsimp only at harrives
        rw [hp] at harrives
        nomatch harrives
  | ended c g hc hg => nomatch hend .toServer trivial
  | resulted c g hc hg => nomatch hend .toClient trivial
  | finished c g hc hidle hg => exact ⟨rfl, rfl, rfl, rfl, hidle, hg⟩

/-- **A stress test**, from an idle state and without a further request, in any order of the
    arrivals and of the timer: what is sent is a first part of the test, whoever is past the result
    is idle, no run is longer than the work of the request, and where no step is left the whole test
    was sent and both sides are idle. -/
theorem stress_test_agreement (c : StressClient) (g : StressServer) (d : StressTestStartData)
    (hc : c.stressTestActive = false) (hg : g.stressTestActive = false)
    (hN : 1 ≤ d.messageCount) (hsize : d.messageSize ≤ 4000) :
    ∃ s₀, (start c g).next (.request d) = some s₀ ∧
      (∀ s, Reach next Unrequested s₀ s → Agrees d s) ∧
      (∀ ls s, exec next Unrequested s₀ ls = some s → ls.length ≤ s₀.work) ∧
      ∀ s, Reach next Unrequested s₀ s → (∀ l, s.Unrequested l → s.next l = none) → Over d s := by
  have hrequest : c.requestStressTest d = (_, [.stressStart d]) :=
    (if_neg (by rw [hc]; decide)).trans (if_neg (by omega))
  have hphase : Phase d ((start c g).fromClient (c.requestStressTest d).1 [.stressStart d]) := by
    rw [hrequest]
    exact .requested _ g ⟨hc, rfl, rfl, rfl⟩ hg
  have hreach : ∀ {s₀ s}, Phase d s₀ → Reach next Unrequested s₀ s → Phase d s := fun h₀ hr =>
    hr.invariant h₀ fun _ _ _ ht hl hs => (ht.step hN hl hs).1
  refine ⟨_, ?_, fun s hr => (hreach hphase hr).agrees, fun ls s hrun => ?_,
    fun s hr hend => (hreach hphase hr).over hend⟩
  · unfold next
    dsimp only [start]
    rw [hrequest]
  · have hlen := length_add_le_of_exec (μ := work)
      (fun _ _ _ ht hl hs => Phase.step hN ht hl hs) ls hphase hrun
    omega

/-- A test of one message. -/
def oneMessage : StressTestStartData := ⟨1, 0, 0, by decide, by decide, by decide⟩

/-- A test of two messages. -/
def twoMessages : StressTestStartData := ⟨2, 0, 0, by decide, by decide, by decide⟩

/-- A test of two messages, to its end: the second one is sent by the timer, before the echo of the
    first has arrived. -/
theorem stress_test_agreement_two :
    ∃ s₀ s, (start ⟨false, twoMessages, 0, 0, 0, false, 0⟩ ⟨false, twoMessages, ∅, 0⟩).next
        (.request twoMessages) = some s₀ ∧
      Reach next Unrequested s₀ s ∧ Over twoMessages s := by
  obtain ⟨s₀, hs₀, -, -, hover⟩ := stress_test_agreement
    ⟨false, twoMessages, 0, 0, 0, false, 0⟩ ⟨false, twoMessages, ∅, 0⟩ twoMessages rfl rfl
    (by decide) (by decide)
  have hr : Reach next Unrequested s₀ ⟨⟨false, twoMessages, 2, 2, 100, false, 0⟩,
      ⟨false, twoMessages, {2, 1}, 2⟩, [], [], clientScript twoMessages,
      serverScript twoMessages⟩ := by
    cases hs₀
    exact .of_exec [.toServer, .toClient, .toServer, .expire, .timer, .toClient, .toServer,
      .toClient, .toServer, .toClient] rfl
  refine ⟨s₀, _, hs₀, hr, hover _ hr fun l hl => ?_⟩
  cases l with
  | request => exact hl.elim
  | toServer => rfl
  | toClient => rfl
  | expire => rfl
  | timer => rfl

end StressTest

end ServerCore
