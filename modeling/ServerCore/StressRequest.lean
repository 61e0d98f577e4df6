/-
  File:      ServerCore/StressRequest.lean
  Subject:   Whether two stress tests of a client can overlap.

  RequestStressTest refuses where `_stressTestActive` is set, and that is set when the
  confirmation of the server is handled. A request between the start and its confirmation is
  granted: it sends a second start, and the settings, the counters and the round-trip times of the
  test that is under way are reset.

  `RttClient` is the client of StressTest.lean with its round-trip times, `RttTest` the two
  sessions with it (`next_toStressTest`). While no request falls into that gap a run is in one of
  five stages (`Stage`), and any other request of a test under way finds the client active. So
  along a run all requests during a test are without effect exactly if none that the size allows
  is made before the confirmation (`one_test_iff`).
-/
import ServerCore.StressIdle

namespace ServerCore

open Trans

/-! ## 1. The client and its round-trip times -/

/-- The stress test of a `ClientSession` with its round-trip times -/
structure RttClient extends StressClient where
  totalRtt : Nat
  maxRtt : Nat
  minRtt : Nat
  deriving DecidableEq

namespace RttClient

/-- `RequestStressTest(messageCount, messageSize, intervalMs)`, and what it sends -/
def requestStressTest (c : RttClient) (startData : StressTestStartData) :
    RttClient × List ClientPacket :=
  if c.stressTestActive then (c, [])
  else if startData.messageSize > 4000 then (c, [])
  else
    ({ c with
        stressTestConfig := startData
        stressTestCurrentSeq := 0
        stressTestReceivedCount := 0
        totalRtt := 0
        maxRtt := 0
        minRtt := 2 ^ 32 - 1
        lastReportedProgress := 0 },
      [.stressStart startData])

/-- An echo that comes `rtt` milliseconds after its message, in the statistics -/
def count (c : RttClient) (rtt : Nat) : RttClient :=
  { c with
    stressTestReceivedCount := u32 (c.stressTestReceivedCount + 1)
    totalRtt := u32 (c.totalRtt + rtt)
    maxRtt := max c.maxRtt rtt
    minRtt := min c.minRtt rtt }

/-- `OnRecvPacket`; `rtt` is `currentTimeMs - stressData->timestamp` of an echo. -/
def onRecvPacket (c : RttClient) (packet : ServerPacket) (rtt : Nat) :
    Option (RttClient × List ClientPacket) :=
  match packet with
  | .stressStart =>
      let started := { c with stressTestActive := true, stressTestCurrentSeq := 0 }
      let (client, packets) := started.sendStressTestData
      some ({ c with toStressClient := client }, packets)
  | .stressData _ =>
      if !c.stressTestActive then some (c, [])
      else
        let counted := c.count (u32 rtt)
        counted.reportProgress.map fun client =>
          if client.stressTestReceivedCount ≥ client.stressTestConfig.messageCount then
            ({ counted with toStressClient := client }, client.endStressTest)
          else ({ counted with toStressClient := client }, [])
  | .stressResult _ => some ({ c with stressTestActive := false }, [])

/-- Without the round-trip times it is the client of the stress test: at a request ... -/
theorem requestStressTest_toStressClient (c : RttClient) (startData : StressTestStartData) :
    ((c.requestStressTest startData).1.toStressClient, (c.requestStressTest startData).2) =
      c.toStressClient.requestStressTest startData := by
  unfold requestStressTest StressClient.requestStressTest
  split
  · rfl
  · split
    · rfl
    · rfl

/-- ... and at a packet. -/
theorem onRecvPacket_toStressClient (c : RttClient) (packet : ServerPacket) (rtt : Nat) :
    (c.onRecvPacket packet rtt).map (fun r => (r.1.toStressClient, r.2)) =
      c.toStressClient.onRecvPacket packet := by
  cases packet with
  | stressStart => rfl
  | stressData n =>
      unfold onRecvPacket StressClient.onRecvPacket
      dsimp only
      split
      · rfl
      · rw [Option.map_map]
        refine congrFun (congrArg _ (funext fun client => ?_)) _
        dsimp only [Function.comp_apply]
        split
        · rfl
        · rfl
  | stressResult result => rfl

/-- A request is without effect exactly where it is refused. -/
theorem requestStressTest_eq_self_iff (c : RttClient) (startData : StressTestStartData) :
    c.requestStressTest startData = (c, []) ↔
      c.stressTestActive = true ∨ 4000 < startData.messageSize := by
  unfold requestStressTest
  split
  · rename_i hactive
    exact iff_of_true rfl (.inl hactive)
  · rename_i hactive
    split
    · rename_i hsize
      exact iff_of_true rfl (.inr hsize)
    · rename_i hsize
      refine iff_of_false (fun h => ?_) fun h => h.elim hactive hsize
      exact List.cons_ne_nil _ _ (congrArg Prod.snd h)

end RttClient

/-! ## 2. The two sessions -/

/-- The sessions, the packets on the way, and all that was sent so far. -/
structure RttTest where
  client : RttClient
  server : StressServer
  toServer : List ClientPacket
  toClient : List ServerPacket
  clientSent : List ClientPacket
  serverSent : List ServerPacket
  deriving DecidableEq

/-- The steps of `StressTest`, with the round-trip time that is measured at an echo -/
inductive RttStep where
  | request (startData : StressTestStartData)
  | toServer
  | toClient (rtt : Nat)
  | expire
  | timer
  deriving DecidableEq

def RttStep.toStressStep : RttStep → StressStep
  | .request startData => .request startData
  | .toServer => .toServer
  | .toClient _ => .toClient
  | .expire => .expire
  | .timer => .timer

namespace RttTest

def toStressTest (s : RttTest) : StressTest :=
  ⟨s.client.toStressClient, s.server, s.toServer, s.toClient, s.clientSent, s.serverSent⟩

/-- The client is at `client` and has sent `packets`. -/
def fromClient (s : RttTest) (client : RttClient) (packets : List ClientPacket) : RttTest :=
  { s with client, toServer := s.toServer ++ packets, clientSent := s.clientSent ++ packets }

def next (s : RttTest) : RttStep → Option RttTest
  | .request startData =>
      let (client, packets) := s.client.requestStressTest startData
      some (s.fromClient client packets)
  | .toServer =>
      match s.toServer with
      | [] => none
      | p :: ps =>
          let (server, packets) := s.server.onRecvPacket p
          some { s with
            server
            toServer := ps
            toClient := s.toClient ++ packets
            serverSent := s.serverSent ++ packets }
  | .toClient rtt =>
      match s.toClient with
      | [] => none
      | p :: ps => (s.client.onRecvPacket p rtt).map fun (client, packets) =>
          { s with toClient := ps }.fromClient client packets
  | .expire => s.client.expire.map fun client =>
      { s with client := { s.client with toStressClient := client } }
  | .timer => s.client.onTimer.map fun (client, packets) =>
      s.fromClient { s.client with toStressClient := client } packets

/-- **Without the round-trip times these are the runs of the stress test.** -/
theorem next_toStressTest (s : RttTest) (l : RttStep) :
    (s.next l).map toStressTest = s.toStressTest.next l.toStressStep := by
  cases l with
  | request startData =>
      have hsame := s.client.requestStressTest_toStressClient startData
      simp only [next, RttStep.toStressStep, StressTest.next]
      rw [show s.toStressTest.client = s.client.toStressClient from rfl, ← hsame]
      rfl
  | toServer =>
      simp only [next, RttStep.toStressStep, StressTest.next]
      rw [show s.toStressTest.toServer = s.toServer from rfl]
      cases s.toServer with
      | nil => rfl
      | cons p ps => rfl
  | toClient rtt =>
      simp only [next, RttStep.toStressStep, StressTest.next]
      rw [show s.toStressTest.toClient = s.toClient from rfl]
      cases s.toClient with
      | nil => rfl
      | cons p ps =>
          dsimp only
          rw [show s.toStressTest.client = s.client.toStressClient from rfl,
            ← s.client.onRecvPacket_toStressClient p rtt, Option.map_map, Option.map_map]
          rfl
  | expire =>
      simp only [next, RttStep.toStressStep, StressTest.next]
      rw [Option.map_map]
      rfl
  | timer =>
      simp only [next, RttStep.toStressStep, StressTest.next]
      rw [Option.map_map]
      rfl

/-- A request is without effect on the whole exactly where it is on the client. -/
theorem next_request_eq_self_iff (s : RttTest) (startData : StressTestStartData) :
    s.next (.request startData) = some s ↔
      s.client.stressTestActive = true ∨ 4000 < startData.messageSize := by
  rw [← RttClient.requestStressTest_eq_self_iff]
  simp only [next, Option.some.injEq]
  constructor
  · intro h
    have hclient : (s.client.requestStressTest startData).1 = s.client :=
      congrArg RttTest.client h
    have hsent : s.toServer ++ (s.client.requestStressTest startData).2 = s.toServer :=
      congrArg RttTest.toServer h
    exact Prod.ext hclient (List.append_right_eq_self.mp hsent)
  · intro h
    rw [h]
    unfold fromClient
    dsimp only
    rw [List.append_nil, List.append_nil]

end RttTest

/-! ## 3. What is under way -/

/-- The packet is a result. -/
def ServerPacket.IsResult : ServerPacket → Prop
  | .stressResult _ => True
  | _ => False

instance : DecidablePred ClientPacket.IsStart
  | .stressStart _ => .isTrue trivial
  | .stressData _ => .isFalse id
  | .stressEnd => .isFalse id

instance : DecidablePred ServerPacket.IsStart
  | .stressStart => .isTrue trivial
  | .stressData _ => .isFalse id
  | .stressResult _ => .isFalse id

instance : DecidablePred ServerPacket.IsResult
  | .stressStart => .isFalse id
  | .stressData _ => .isFalse id
  | .stressResult _ => .isTrue trivial

/-- The starts of `packets` -/
def starts (packets : List ClientPacket) : Nat := packets.countP fun p => p.IsStart

/-- The confirmations of `packets` -/
def acks (packets : List ServerPacket) : Nat := packets.countP fun p => p.IsStart

/-- The results of `packets` -/
def results (packets : List ServerPacket) : Nat := packets.countP fun p => p.IsResult

theorem starts_append (ps qs : List ClientPacket) : starts (ps ++ qs) = starts ps + starts qs :=
  List.countP_append

theorem acks_append (ps qs : List ServerPacket) : acks (ps ++ qs) = acks ps + acks qs :=
  List.countP_append

theorem results_append (ps qs : List ServerPacket) : results (ps ++ qs) = results ps + results qs :=
  List.countP_append

theorem starts_eq_zero {ps : List ClientPacket} (h : ∀ p ∈ ps, ¬ p.IsStart) : starts ps = 0 :=
  List.countP_eq_zero.mpr fun p hp => by
    rw [decide_eq_true_eq]
    exact h p hp

theorem acks_of_echoes {ps : List ServerPacket} (h : ∀ p ∈ ps, p.IsEcho) : acks ps = 0 :=
  List.countP_eq_zero.mpr fun p hp => by
    obtain ⟨n, rfl⟩ := (h p hp).exists_eq
    exact Bool.false_ne_true

theorem results_of_echoes {ps : List ServerPacket} (h : ∀ p ∈ ps, p.IsEcho) : results ps = 0 :=
  List.countP_eq_zero.mpr fun p hp => by
    obtain ⟨n, rfl⟩ := (h p hp).exists_eq
    exact Bool.false_ne_true

namespace StressTest

/-- **A test is under way**: the client has sent more starts than it has handled results. -/
def InProgress (s : StressTest) : Prop :=
  results s.serverSent - results s.toClient < starts s.clientSent

/-- **A start is not confirmed**: the client has sent more of them than it has handled
    confirmations. -/
def Unacknowledged (s : StressTest) : Prop :=
  acks s.serverSent - acks s.toClient < starts s.clientSent

instance (s : StressTest) : Decidable s.InProgress := Nat.decLt _ _

instance (s : StressTest) : Decidable s.Unacknowledged := Nat.decLt _ _

/-! ## 4. The stages of a run -/

/-- `a` confirmations and `r` results have still to be sent. -/
structure Owed (cs : List ClientPacket) (ss : List ServerPacket) (a r : Nat) : Prop where
  acks : acks ss + a = starts cs
  results : results ss + r = starts cs

/-- **The stages of a run** that makes no request before the confirmation. -/
inductive Stage : StressTest → Prop where
  /-- No test is under way; what the server still gets of the last one it does not answer. -/
  | rests (c : StressClient) (g : StressServer) (old cs : List ClientPacket)
      (ss : List ServerPacket) (hc : c.stressTestActive = false) (hg : g.stressTestActive = false)
      (hold : ∀ p ∈ old, ¬ p.IsStart) (howed : Owed cs ss 0 0) : Stage ⟨c, g, old, [], cs, ss⟩
  /-- The start is on the way. -/
  | asks (c : StressClient) (g : StressServer) (d : StressTestStartData)
      (old cs : List ClientPacket) (ss : List ServerPacket) (hc : c.stressTestActive = false)
      (hg : g.stressTestActive = false) (hold : ∀ p ∈ old, ¬ p.IsStart)
      (howed : Owed cs ss 1 1) : Stage ⟨c, g, old ++ [.stressStart d], [], cs, ss⟩
  /-- The confirmation is on the way. -/
  | confirms (c : StressClient) (g : StressServer) (cs : List ClientPacket)
      (ss : List ServerPacket) (hc : c.stressTestActive = false) (hg : g.stressTestActive = true)
      (howed : Owed cs ss 0 1) : Stage ⟨c, g, [], [.stressStart], cs, ss⟩
  /-- Both sides are in the test. -/
  | tests (c : StressClient) (g : StressServer) (ps cs : List ClientPacket)
      (echoes ss : List ServerPacket) (hc : c.stressTestActive = true)
      (hg : g.stressTestActive = true) (hps : ∀ p ∈ ps, ¬ p.IsStart)
      (hechoes : ∀ p ∈ echoes, p.IsEcho) (howed : Owed cs ss 0 1) :
      Stage ⟨c, g, ps, echoes, cs, ss⟩
  /-- The result is on the way. -/
  | closes (c : StressClient) (g : StressServer) (ps cs : List ClientPacket)
      (echoes ss : List ServerPacket) (result : StressTestResult) (hc : c.stressTestActive = true)
      (hg : g.stressTestActive = false) (hps : ∀ p ∈ ps, ¬ p.IsStart)
      (hechoes : ∀ p ∈ echoes, p.IsEcho) (howed : Owed cs ss 0 0) (hpos : 0 < starts cs) :
      Stage ⟨c, g, ps, echoes ++ [.stressResult result], cs, ss⟩

/-- **What a request finds** at each stage. -/
theorem Stage.request_cases {s : StressTest} (h : Stage s) :
    (¬ s.InProgress ∧ ¬ s.Unacknowledged) ∨
      (s.InProgress ∧ s.Unacknowledged ∧ s.client.stressTestActive = false) ∨
      (s.InProgress ∧ ¬ s.Unacknowledged ∧ s.client.stressTestActive = true) := by
  unfold InProgress Unacknowledged
  cases h with
  | rests c g old cs ss hc hg hold howed =>
      have hacks := howed.acks
      have hresults := howed.results
      have hnone : acks [] = 0 ∧ results [] = 0 := ⟨rfl, rfl⟩
      exact .inl ⟨by dsimp only; omega, by dsimp only; omega⟩
  | asks c g d old cs ss hc hg hold howed =>
      have hacks := howed.acks
      have hresults := howed.results
      exact .inr (.inl ⟨by dsimp only; omega, by dsimp only; omega, hc⟩)
  | confirms c g cs ss hc hg howed =>
      have hacks := howed.acks
      have hresults := howed.results
      have hone : acks [.stressStart] = 1 ∧ results [.stressStart] = 0 := ⟨rfl, rfl⟩
      have hpos : 0 < starts cs := by omega
      exact .inr (.inl ⟨by dsimp only; omega, by dsimp only; omega, hc⟩)
  | tests c g ps cs echoes ss hc hg hps hechoes howed =>
      have hacks := howed.acks
      have hresults := howed.results
      have hnone := acks_of_echoes hechoes
      exact .inr (.inr ⟨by dsimp only; omega, by dsimp only; omega, hc⟩)
  | closes c g ps cs echoes ss result hc hg hps hechoes howed hpos =>
      have hacks := howed.acks
      have hresults := howed.results
      have hnone : acks (echoes ++ [.stressResult result]) = 0 := by
        rw [acks_append, acks_of_echoes hechoes]
        rfl
      have hone : results (echoes ++ [.stressResult result]) = 1 := by
        rw [results_append, results_of_echoes hechoes]
        rfl
      exact .inr (.inr ⟨by dsimp only; omega, by dsimp only; omega, hc⟩)

/-! ## 5. One step -/

section Owed

variable {cs : List ClientPacket} {ss : List ServerPacket} {a r : Nat}

/-- Further messages, or an end. -/
theorem Owed.fromClient (h : Owed cs ss a r) {ps : List ClientPacket}
    (hps : ∀ p ∈ ps, ¬ p.IsStart) : Owed (cs ++ ps) ss a r := by
  have hsame : starts (cs ++ ps) = starts cs := by
    rw [starts_append, starts_eq_zero hps, Nat.add_zero]
  exact ⟨hsame ▸ h.acks, hsame ▸ h.results⟩

/-- A start. -/
theorem Owed.start (h : Owed cs ss a r) (d : StressTestStartData) :
    Owed (cs ++ [.stressStart d]) ss (a + 1) (r + 1) := by
  have hone : starts (cs ++ [.stressStart d]) = starts cs + 1 := starts_append cs [.stressStart d]
  have hacks := h.acks
  have hresults := h.results
  exact ⟨by omega, by omega⟩

/-- A confirmation. -/
theorem Owed.ack (h : Owed cs ss (a + 1) r) : Owed cs (ss ++ [.stressStart]) a r := by
  have hone : ServerCore.acks (ss ++ [.stressStart]) = ServerCore.acks ss + 1 :=
    acks_append ss [.stressStart]
  have hsame : ServerCore.results (ss ++ [.stressStart]) = ServerCore.results ss :=
    results_append ss [.stressStart]
  have hacks := h.acks
  have hresults := h.results
  exact ⟨by omega, by omega⟩

/-- An echo. -/
theorem Owed.echo (h : Owed cs ss a r) (n : Nat) : Owed cs (ss ++ [.stressData n]) a r := by
  have hsame : ServerCore.acks (ss ++ [.stressData n]) = ServerCore.acks ss :=
    acks_append ss [.stressData n]
  have hsame' : ServerCore.results (ss ++ [.stressData n]) = ServerCore.results ss :=
    results_append ss [.stressData n]
  exact ⟨hsame ▸ h.acks, hsame' ▸ h.results⟩

/-- A result. -/
theorem Owed.result (h : Owed cs ss a (r + 1)) (result : StressTestResult) :
    Owed cs (ss ++ [.stressResult result]) a r := by
  have hsame : ServerCore.acks (ss ++ [.stressResult result]) = ServerCore.acks ss :=
    acks_append ss [.stressResult result]
  have hone : ServerCore.results (ss ++ [.stressResult result]) = ServerCore.results ss + 1 :=
    results_append ss [.stressResult result]
  have hacks := h.acks
  have hresults := h.results
  exact ⟨by omega, by omega⟩

end Owed

variable {s s' : StressTest}

/-- **The client acts without a request**: what it sends holds no start, and it stays active. -/
theorem Stage.fromClient_active {c c' : StressClient} {g : StressServer}
    {ps cs qs : List ClientPacket} {echoes ss : List ServerPacket}
    (hsame : c'.stressTestActive = true) (hqs : ∀ p ∈ qs, ¬ p.IsStart)
    (h : Stage ⟨c, g, ps, echoes, cs, ss⟩) (hc : c.stressTestActive = true) :
    Stage ⟨c', g, ps ++ qs, echoes, cs ++ qs, ss⟩ := by
  generalize hs : (⟨c, g, ps, echoes, cs, ss⟩ : StressTest) = s at h
  cases h with
  | rests c₁ g old cs ss hno hg hold howed =>
      cases hs
      exact absurd (hno.symm.trans hc) Bool.noConfusion
  | asks c₁ g d old cs ss hno hg hold howed =>
      cases hs
      exact absurd (hno.symm.trans hc) Bool.noConfusion
  | confirms c₁ g cs ss hno hg howed =>
      cases hs
      exact absurd (hno.symm.trans hc) Bool.noConfusion
  | tests c₁ g ps cs echoes ss hc₁ hg hps hechoes howed =>
      cases hs
      exact .tests c' g (ps ++ qs) (cs ++ qs) echoes ss hsame hg
        (List.forall_mem_append.mpr ⟨hps, hqs⟩) hechoes (howed.fromClient hqs)
  | closes c₁ g ps cs echoes ss result hc₁ hg hps hechoes howed hpos =>
      cases hs
      have hpos' : 0 < starts (cs ++ qs) := by
        rw [starts_append]
        omega
      exact .closes c' g (ps ++ qs) (cs ++ qs) echoes ss result hsame hg
        (List.forall_mem_append.mpr ⟨hps, hqs⟩) hechoes (howed.fromClient hqs) hpos'

/-- The client changes without sending, and is as active as before. -/
theorem Stage.of_client (h : Stage s) {c : StressClient}
    (hsame : c.stressTestActive = s.client.stressTestActive) : Stage { s with client := c } := by
  cases h with
  | rests c₁ g old cs ss hc hg hold howed =>
      exact .rests c g old cs ss (hsame.trans hc) hg hold howed
  | asks c₁ g d old cs ss hc hg hold howed =>
      exact .asks c g d old cs ss (hsame.trans hc) hg hold howed
  | confirms c₁ g cs ss hc hg howed => exact .confirms c g cs ss (hsame.trans hc) hg howed
  | tests c₁ g ps cs echoes ss hc hg hps hechoes howed =>
      exact .tests c g ps cs echoes ss (hsame.trans hc) hg hps hechoes howed
  | closes c₁ g ps cs echoes ss result hc hg hps hechoes howed hpos =>
      exact .closes c g ps cs echoes ss result (hsame.trans hc) hg hps hechoes howed hpos

/-- **RequestStressTest**, not between a start and its confirmation. -/
theorem Stage.request (h : Stage s) {d : StressTestStartData}
    (hok : d.messageSize ≤ 4000 → ¬ s.Unacknowledged) (hs : s.next (.request d) = some s') :
    Stage s' := by
  rw [next_request hs]
  rcases s.client.requestStressTest_cases d with ⟨-, hsame⟩ | ⟨hidle, hsize, hsent⟩
  · rw [hsame, fromClient_nil]
    exact h
  · have hack := hok hsize
    rw [hsent]
    cases h with
    | rests c g old cs ss hc hg hold howed =>
        exact .asks { c with
          stressTestConfig := d
          stressTestCurrentSeq := 0
          stressTestReceivedCount := 0
          lastReportedProgress := 0 } g d old (cs ++ [.stressStart d]) ss hc hg hold
          (howed.start d)
    | asks c g d' old cs ss hc hg hold howed =>
        have hacks := howed.acks
        exact absurd (show acks ss - 0 < starts cs by omega) hack
    | confirms c g cs ss hc hg howed =>
        have hacks := howed.acks
        have hresults := howed.results
        exact absurd (show acks ss - 1 < starts cs by omega) hack
    | tests c g _ _ _ _ hc => exact absurd (hc.symm.trans hidle) Bool.noConfusion
    | closes c g _ _ _ _ _ hc => exact absurd (hc.symm.trans hidle) Bool.noConfusion

/-- **A packet arrives at the server.** -/
theorem Stage.toServer (h : Stage s) (hs : s.next .toServer = some s') : Stage s' := by
  obtain ⟨p, ps, hp, rfl⟩ := next_toServer hs
  cases h with
  | rests c g old cs ss hc hg hold howed =>
      cases hp
      obtain ⟨hfirst, hrest⟩ := List.forall_mem_cons.mp hold
      dsimp only
      rw [onRecvPacket_of_idle hg hfirst, fromServer_nil]
      exact .rests c g ps cs ss hc hg hrest howed
  | asks c g d old cs ss hc hg hold howed =>
      cases old with
      | nil =>
          cases hp
          exact .confirms c ⟨true, d, ∅, 0⟩ cs (ss ++ [.stressStart]) hc rfl howed.ack
      | cons p' old =>
          cases hp
          obtain ⟨hfirst, hrest⟩ := List.forall_mem_cons.mp hold
          dsimp only
          rw [onRecvPacket_of_idle hg hfirst, fromServer_nil]
          exact .asks c g d old cs ss hc hg hrest howed
  | confirms c g cs ss hc hg howed => cases hp
  | tests c g ps' cs echoes ss hc hg hps hechoes howed =>
      cases hp
      obtain ⟨hfirst, hrest⟩ := List.forall_mem_cons.mp hps
      cases p with
      | stressStart d => exact absurd trivial hfirst
      | stressData n =>
          have hechoes' : ∀ q ∈ echoes ++ [.stressData n], q.IsEcho :=
            forall_mem_snoc hechoes trivial
          dsimp only
          rw [StressServer.onRecvPacket_data hg]
          exact .tests c _ ps cs _ _ hc hg hrest hechoes' (howed.echo n)
      | stressEnd =>
          have hresults := howed.results
          dsimp only
          rw [StressServer.onRecvPacket_end hg]
          exact .closes c _ ps cs echoes _ g.stressTestResult hc rfl hrest hechoes
            (howed.result _) (by omega)
  | closes c g ps' cs echoes ss result hc hg hps hechoes howed hpos =>
      cases hp
      obtain ⟨hfirst, hrest⟩ := List.forall_mem_cons.mp hps
      dsimp only
      rw [onRecvPacket_of_idle hg hfirst, fromServer_nil]
      exact .closes c g ps cs echoes ss result hc hg hrest hechoes howed hpos

/-- **A packet arrives at the client.** -/
theorem Stage.toClient (h : Stage s) (hs : s.next .toClient = some s') : Stage s' := by
  obtain ⟨p, qs, r, hp, hr, rfl⟩ := next_toClient hs
  cases h with
  | rests c g old cs ss hc hg hold howed => cases hp
  | asks c g d old cs ss hc hg hold howed => cases hp
  | confirms c g cs ss hc hg howed =>
      cases hp
      obtain rfl := Option.some.inj hr
      obtain ⟨hactive, -, hsent⟩ := StressClient.sendStressTestData_frame
        { c with stressTestActive := true, stressTestCurrentSeq := 0 }
      have hnot := fun p hp => (hsent p hp).not_isStart
      exact .tests _ g _ _ [] ss hactive hg hnot (List.forall_mem_nil _) (howed.fromClient hnot)
  | tests c g ps cs echoes ss hc hg hps hechoes howed =>
      cases hp
      obtain ⟨hfirst, hrest⟩ := List.forall_mem_cons.mp hechoes
      obtain ⟨n, rfl⟩ := hfirst.exists_eq
      obtain ⟨hactive, hnot⟩ := echo_frame hc hr
      exact (Stage.tests c g ps cs qs ss hc hg hps hrest howed).fromClient_active hactive hnot hc
  | closes c g ps cs echoes ss result hc hg hps hechoes howed hpos =>
      cases echoes with
      | nil =>
          cases hp
          obtain rfl := Option.some.inj hr
          dsimp only
          rw [fromClient_nil]
          exact .rests { c with stressTestActive := false } g ps cs ss rfl hg hps howed
      | cons p' echoes =>
          cases hp
          obtain ⟨hfirst, hrest⟩ := List.forall_mem_cons.mp hechoes
          obtain ⟨n, rfl⟩ := hfirst.exists_eq
          obtain ⟨hactive, hnot⟩ := echo_frame hc hr
          exact (Stage.closes c g ps cs echoes ss result hc hg hps hrest howed
            hpos).fromClient_active hactive hnot hc

/-- **The timer.** -/
theorem Stage.timer (h : Stage s) (hs : s.next .timer = some s') : Stage s' := by
  obtain ⟨r, hr, rfl⟩ := next_timer hs
  obtain ⟨hsame, -, hsent, hidle⟩ := StressClient.onTimer_frame hr
  cases hactive : s.client.stressTestActive with
  | false =>
      rw [hidle hactive, fromClient_nil]
      exact h.of_client hsame
  | true =>
      exact h.fromClient_active (hsame.trans hactive) (fun p hp => (hsent p hp).not_isStart)
        hactive

/-- **One step** of a run without a request before the confirmation. -/
theorem Stage.step (h : Stage s) {l : StressStep}
    (hok : ∀ d, l = .request d → d.messageSize ≤ 4000 → ¬ s.Unacknowledged)
    (hs : s.next l = some s') : Stage s' := by
  cases l with
  | request d => exact h.request (hok d rfl) hs
  | toServer => exact h.toServer hs
  | toClient => exact h.toClient hs
  | expire =>
      obtain ⟨c, hc, rfl⟩ := next_expire hs
      obtain ⟨-, rfl⟩ := StressClient.expire_eq_some hc
      exact h.of_client rfl
  | timer => exact h.timer hs

end StressTest

/-! ## 6. The runs -/

namespace RttTest

/-- A request that is made while a test is under way has no effect. -/
def WithoutEffect (s : RttTest) (l : RttStep) : Prop :=
  ∀ startData, l = .request startData → s.toStressTest.InProgress → s.next l = some s

/-- A request that the size of the messages allows is not made between a start and its
    confirmation. -/
def AfterConfirmation (s : RttTest) (l : RttStep) : Prop :=
  ∀ startData, l = .request startData → startData.messageSize ≤ 4000 →
    ¬ s.toStressTest.Unacknowledged

instance (s : RttTest) : ∀ l, Decidable (s.AfterConfirmation l)
  | .request d =>
      decidable_of_iff (d.messageSize ≤ 4000 → ¬ s.toStressTest.Unacknowledged)
        ⟨fun h _ hd => RttStep.request.inj hd ▸ h, fun h => h d rfl⟩
  | .toServer => .isTrue fun _ hd => RttStep.noConfusion hd
  | .toClient _ => .isTrue fun _ hd => RttStep.noConfusion hd
  | .expire => .isTrue fun _ hd => RttStep.noConfusion hd
  | .timer => .isTrue fun _ hd => RttStep.noConfusion hd

/-- Nothing was sent yet. -/
def start (client : RttClient) (server : StressServer) : RttTest :=
  ⟨client, server, [], [], [], []⟩

/-- **One stress test at a time**: along a run of two sessions, each request made after a start was
    sent and before the result is handled is without effect, on what is sent, on the settings, the
    counters and the round-trip times, exactly if none that the size allows is made before the
    confirmation of a start is handled. -/
theorem one_test_iff {client : RttClient} {server : StressServer}
    (hclient : client.stressTestActive = false) (hserver : server.stressTestActive = false)
    (steps : List RttStep) :
    Along next WithoutEffect (start client server) steps ↔
      Along next AfterConfirmation (start client server) steps := by
  have hstart : (start client server).toStressTest.Stage :=
    .rests client.toStressClient server [] [] [] hclient hserver (List.forall_mem_nil _) ⟨rfl, rfl⟩
  refine along_iff (I := fun s => s.toStressTest.Stage) (fun s l hI => ?_)
    (fun s s' l hI hok hs => ?_) steps hstart
  · refine forall₂_congr fun startData hl => ?_
    rw [hl, next_request_eq_self_iff, ← Nat.not_le]
    have hfinds := hI.request_cases
    have hsame : s.toStressTest.client.stressTestActive = s.client.stressTestActive := rfl
    rcases hfinds with ⟨hno, hno'⟩ | ⟨hyes, hyes', hidle⟩ | ⟨hyes, hno, hactive⟩
    · exact iff_of_true (fun h => absurd h hno) fun _ => hno'
    · rw [← hsame, hidle]
      simp [hyes, hyes']
    · exact iff_of_true (fun _ => .inl (hsame ▸ hactive)) fun _ => hno
  · have hnext := s.next_toStressTest l
    rw [hs, Option.map_some] at hnext
    refine hI.step (l := l.toStressStep) (fun d hl => ?_) hnext.symm
    cases l with
    | request startData =>
        obtain rfl := StressStep.request.inj hl
        exact hok _ rfl
    | toServer => cases hl
    | toClient rtt => cases hl
    | expire => cases hl
    | timer => cases hl

/-- A test of `messageCount` messages of 16 bytes -/
def settings (messageCount : Nat) : StressTestStartData := .ofNat messageCount 16 0

/-- Two sessions before their first test -/
def fresh : RttTest :=
  start ⟨⟨false, settings 0, 0, 0, 0, false, 0⟩, 0, 0, 0⟩ ⟨false, settings 0, ∅, 0⟩

/-- A second request while the first message is on the way -/
theorem one_test_iff_refused :
    Along next WithoutEffect fresh
      [.request (settings 3), .toServer, .toClient 0, .request (settings 5)] := by
  have hrun : (exec next AfterConfirmation fresh
      [.request (settings 3), .toServer, .toClient 0, .request (settings 5)]).isSome := by decide
  obtain ⟨s, hs⟩ := Option.isSome_iff_exists.mp hrun
  exact (one_test_iff rfl rfl _).mpr (Along.of_exec _ hs)

/-- **A second request before the confirmation** of the first: a second start is sent, and the test
    that is under way has other settings. -/
theorem second_start :
    ∃ s s', fresh.next (.request (settings 3)) = some s ∧ s.toStressTest.InProgress ∧
      s.next (.request (settings 5)) = some s' ∧ s'.client.stressTestConfig = settings 5 ∧
      s'.clientSent = [.stressStart (settings 3), .stressStart (settings 5)] ∧
      ¬ Along next WithoutEffect fresh [.request (settings 3), .request (settings 5)] := by
  refine ⟨_, _, rfl, by decide, rfl, rfl, rfl, fun h => ?_⟩
  have heffect := (h.2 _ rfl).1 (settings 5) rfl (by decide)
  rcases (next_request_eq_self_iff _ _).mp heffect with hactive | hsize
  · exact absurd hactive (by decide)
  · exact absurd hsize (by decide)

end RttTest

end ServerCore
