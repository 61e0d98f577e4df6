/-
  File:      ServerCore/StressIdle.lean
  Subject:   Whether the stress test can get stuck.

  RequestStressTest bounds the size of the messages but not their number from below. A confirmed
  test of no messages sends none, gets no echo, and is never ended. Where every test the client
  begins has a message, whatever is requested meanwhile, a state where nothing is on the way and no
  timer pending is an idle one; and each begun test without messages is stuck for good
  (`stress_test_idle`).
-/
import ServerCore.StressAgreement

namespace ServerCore

open Trans

/-! ## 1. Packets by kind -/

def ClientPacket.IsStart : ClientPacket → Prop
  | .stressStart _ => True
  | _ => False

def ClientPacket.IsData : ClientPacket → Prop
  | .stressData _ => True
  | _ => False

def ServerPacket.IsStart : ServerPacket → Prop
  | .stressStart => True
  | _ => False

def ServerPacket.IsEcho : ServerPacket → Prop
  | .stressData _ => True
  | _ => False

theorem ClientPacket.IsStart.exists_eq {p : ClientPacket} (h : p.IsStart) :
    ∃ d, p = .stressStart d := by
  cases p with
  | stressStart d => exact ⟨d, rfl⟩
  | stressData n => exact h.elim
  | stressEnd => exact h.elim

theorem ClientPacket.IsData.exists_eq {p : ClientPacket} (h : p.IsData) :
    ∃ n, p = .stressData n := by
  cases p with
  | stressData n => exact ⟨n, rfl⟩
  | stressStart d => exact h.elim
  | stressEnd => exact h.elim

theorem ClientPacket.IsData.not_isStart {p : ClientPacket} (h : p.IsData) : ¬ p.IsStart := by
  obtain ⟨n, rfl⟩ := h.exists_eq
  exact id

theorem ServerPacket.IsStart.eq {p : ServerPacket} (h : p.IsStart) : p = .stressStart := by
  cases p with
  | stressStart => rfl
  | stressData n => exact h.elim
  | stressResult result => exact h.elim

theorem ServerPacket.IsEcho.exists_eq {p : ServerPacket} (h : p.IsEcho) :
    ∃ n, p = .stressData n := by
  cases p with
  | stressData n => exact ⟨n, rfl⟩
  | stressStart => exact h.elim
  | stressResult result => exact h.elim

/-- One packet more. -/
theorem forall_mem_snoc {α : Type} {P : α → Prop} {ps : List α} (h : ∀ p ∈ ps, P p) {q : α}
    (hq : P q) : ∀ p ∈ ps ++ [q], P p :=
  List.forall_mem_append.mpr ⟨h, List.forall_mem_singleton.mpr hq⟩

namespace StressClient

/-- What `SendStressTestData` leaves alone, and that it sends messages only. -/
theorem sendStressTestData_frame (c : StressClient) :
    c.sendStressTestData.1.stressTestActive = c.stressTestActive ∧
      c.sendStressTestData.1.stressTestReceivedCount = c.stressTestReceivedCount ∧
      ∀ p ∈ c.sendStressTestData.2, p.IsData := by
  unfold sendStressTestData
  split
  · exact ⟨rfl, rfl, fun _ hp => nomatch hp⟩
  · refine ⟨rfl, rfl, fun p hp => ?_⟩
    rw [List.mem_singleton.mp hp]
    trivial

/-- A handler of the timer sends messages only, and none where the client is not active. -/
theorem onTimer_frame {c : StressClient} {r : StressClient × List ClientPacket}
    (h : c.onTimer = some r) :
    r.1.stressTestActive = c.stressTestActive ∧
      r.1.stressTestReceivedCount = c.stressTestReceivedCount ∧ (∀ p ∈ r.2, p.IsData) ∧
      (c.stressTestActive = false → r.2 = []) := by
  unfold onTimer at h
  split at h
  · nomatch h
  · obtain rfl := Option.some.inj h
    dsimp only
    split
    · rename_i hactive
      obtain ⟨hsame, hcount, hsent⟩ := sendStressTestData_frame { c with due := c.due - 1 }
      exact ⟨hsame, hcount, hsent, fun hno => absurd (hno.symm.trans hactive) Bool.noConfusion⟩
    · exact ⟨rfl, rfl, (fun _ hp => nomatch hp), fun _ => rfl⟩

/-- An echo that an active client has handled: the progress changes what was last reported of
    it only. -/
theorem onRecvPacket_echo_eq_some {c : StressClient} {n : Nat}
    {r : StressClient × List ClientPacket} (hactive : c.stressTestActive = true)
    (h : c.onRecvPacket (.stressData n) = some r) :
    ∃ p, r = ({ c with
        stressTestReceivedCount := u32 (c.stressTestReceivedCount + 1)
        lastReportedProgress := p },
      if c.stressTestConfig.messageCount ≤ u32 (c.stressTestReceivedCount + 1) then [.stressEnd]
      else []) := by
  rw [onRecvPacket_of_active hactive] at h
  obtain ⟨c', hc', rfl⟩ := Option.map_eq_some_iff.mp h
  obtain ⟨p, rfl⟩ : ∃ p, c' = { c with
      stressTestReceivedCount := u32 (c.stressTestReceivedCount + 1)
      lastReportedProgress := p } := ⟨_, reportProgress_eq_some hc'⟩
  refine ⟨p, ?_⟩
  dsimp only
  split
  · rw [endStressTest_of_active]
    exact hactive
  · rfl

/-- A confirmation of a test without messages: nothing is sent. -/
theorem onRecvPacket_start_of_none {c : StressClient}
    (h : c.stressTestConfig.messageCount = 0) : c.onRecvPacket .stressStart =
      some ({ c with stressTestActive := true, stressTestCurrentSeq := 0 }, []) :=
  congrArg some (sendStressTestData_of_le
    (c := { c with stressTestActive := true, stressTestCurrentSeq := 0 }) (Nat.le_of_eq h))

end StressClient

namespace StressTest

/-! ## 2. Whose turn it is -/

/-- **The client begins no test without messages**: where it handles a confirmation, the count of
    the last request is not 0. -/
def Counted (s : StressTest) (l : StressStep) : Prop :=
  l = .toClient → s.toClient.head? = some .stressStart →
    1 ≤ s.client.stressTestConfig.messageCount

/-- **Who has to act**, over all runs, also those with requests before the confirmation. -/
inductive Turn : StressTest → Prop where
  /-- The client is not in a test. What the server was sent for a test that is over it does not
      answer; it is active just when a confirmation is on the way. -/
  | waits (c : StressClient) (g : StressServer) (old starts : List ClientPacket)
      (acks : List ServerPacket) (cs : List ClientPacket) (ss : List ServerPacket)
      (hc : c.stressTestActive = false) (hold : ∀ p ∈ old, ¬ p.IsStart)
      (hstarts : ∀ p ∈ starts, p.IsStart) (hacks : ∀ p ∈ acks, p.IsStart)
      (hg : g.stressTestActive = true ↔ acks ≠ []) (hold' : g.stressTestActive = true → old = [])
      (hcount : starts ≠ [] ∨ acks ≠ [] → c.stressTestReceivedCount = 0) :
      Turn ⟨c, g, old ++ starts, acks, cs, ss⟩
  /-- The client has not got all echoes: they, their messages or the timer are still to come. -/
  | sends (c : StressClient) (g : StressServer) (starts datas : List ClientPacket)
      (acks echoes : List ServerPacket) (cs : List ClientPacket) (ss : List ServerPacket)
      (hc : c.stressTestActive = true) (hg : g.stressTestActive = true)
      (hstarts : ∀ p ∈ starts, p.IsStart) (hdatas : ∀ p ∈ datas, p.IsData)
      (hacks : ∀ p ∈ acks, p.IsStart) (hechoes : ∀ p ∈ echoes, p.IsEcho)
      (hfirst : starts ≠ [] → echoes = [])
      (hcount : starts ≠ [] ∨ acks ≠ [] → c.stressTestReceivedCount = 0)
      (hlt : c.stressTestReceivedCount < c.stressTestConfig.messageCount)
      (hseq : c.stressTestCurrentSeq ≤ c.stressTestConfig.messageCount)
      (hsent : c.stressTestCurrentSeq ≤
        c.stressTestReceivedCount + echoes.length + datas.length)
      (htimer : c.stressTestCurrentSeq < c.stressTestConfig.messageCount →
        c.waiting = true ∨ 0 < c.due) :
      Turn ⟨c, g, starts ++ datas, acks ++ echoes, cs, ss⟩
  /-- The end of the test is on the way to the server. -/
  | ends (c : StressClient) (g : StressServer) (ps : List ClientPacket)
      (echoes : List ServerPacket) (cs : List ClientPacket) (ss : List ServerPacket)
      (hc : c.stressTestActive = true) (hg : g.stressTestActive = true)
      (hps : ∀ p ∈ ps, ¬ p.IsStart) (hend : .stressEnd ∈ ps)
      (hechoes : ∀ p ∈ echoes, p.IsEcho) : Turn ⟨c, g, ps, echoes, cs, ss⟩
  /-- The result is on the way to the client. -/
  | closes (c : StressClient) (g : StressServer) (ps : List ClientPacket)
      (echoes : List ServerPacket) (result : StressTestResult) (cs : List ClientPacket)
      (ss : List ServerPacket) (hc : c.stressTestActive = true)
      (hg : g.stressTestActive = false) (hps : ∀ p ∈ ps, ¬ p.IsStart)
      (hechoes : ∀ p ∈ echoes, p.IsEcho) :
      Turn ⟨c, g, ps, echoes ++ [.stressResult result], cs, ss⟩

variable {s s' : StressTest}

/-- **Where it is somebody's turn a quiet state is an idle one.** -/
theorem Turn.idle (h : Turn s) (hquiet : s.Quiet) : s.Idle := by
  obtain ⟨htoServer, htoClient, hwaiting, hdue⟩ := hquiet
  cases h with
  | waits c g old starts acks cs ss hc hold hstarts hacks hg hold' hcount =>
      refine ⟨hc, ?_⟩
      rw [← Bool.not_eq_true, hg]
      exact fun hne => hne htoClient
  | sends c g starts datas acks echoes cs ss hc hg hstarts hdatas hacks hechoes hfirst hcount hlt
      hseq hsent htimer =>
      exfalso
      rw [(List.append_eq_nil_iff.mp htoServer).2, (List.append_eq_nil_iff.mp htoClient).2] at hsent
      dsimp only at hwaiting hdue
      rw [List.length_nil] at hsent
      obtain hw | hd := htimer (by
        rw [List.length_nil] at hsent
        omega)
      · rw [hw] at hwaiting
        nomatch hwaiting
      · omega
  | ends c g ps echoes cs ss hc hg hps hend hechoes =>
      dsimp only at htoServer
      rw [htoServer] at hend
      nomatch hend
  | closes c g ps echoes result cs ss hc hg hps hechoes =>
      exact absurd htoClient (List.append_ne_nil_of_right_ne_nil _ (List.cons_ne_nil _ _))

/-! ## 3. One step -/

/-- The server that is not in a test answers a request only. -/
theorem onRecvPacket_of_idle {g : StressServer} (hg : g.stressTestActive = false)
    {p : ClientPacket} (hp : ¬ p.IsStart) : g.onRecvPacket p = (g, []) := by
  have hnot : (!g.stressTestActive) = true := by
    rw [hg]
    rfl
  cases p with
  | stressStart d => exact absurd trivial hp
  | stressData n => exact if_pos hnot
  | stressEnd => exact if_pos hnot

@[simp] theorem fromServer_nil (s : StressTest) (g : StressServer) :
    s.fromServer g [] = { s with server := g } := by
  unfold fromServer
  rw [List.append_nil, List.append_nil]

/-- **RequestStressTest**: refused, or a start is on the way. -/
theorem Turn.request (h : Turn s) {d : StressTestStartData}
    (hs : s.next (.request d) = some s') : Turn s' := by
  rw [next_request hs]
  rcases s.client.requestStressTest_cases d with ⟨-, hsame⟩ | ⟨hidle, -, hsent⟩
  · rw [hsame, fromClient_nil]
    exact h
  · rw [hsent]
    cases h with
    | waits c g old starts acks cs ss hc hold hstarts hacks hg hold' hcount =>
        have hstarts' : ∀ p ∈ starts ++ [.stressStart d], p.IsStart :=
          forall_mem_snoc hstarts trivial
        have hturn := Turn.waits { c with
          stressTestConfig := d
          stressTestCurrentSeq := 0
          stressTestReceivedCount := 0
          lastReportedProgress := 0 } g old (starts ++ [.stressStart d]) acks
          (cs ++ [.stressStart d]) ss hc hold hstarts' hacks hg hold' fun _ => rfl
        rw [← List.append_assoc] at hturn
        exact hturn
    | sends c g _ _ _ _ _ _ hc => exact absurd (hc.symm.trans hidle) Bool.noConfusion
    | ends c g _ _ _ _ hc => exact absurd (hc.symm.trans hidle) Bool.noConfusion
    | closes c g _ _ _ _ _ hc => exact absurd (hc.symm.trans hidle) Bool.noConfusion

/-- **A packet arrives at the server.** -/
theorem Turn.toServer (h : Turn s) (hs : s.next .toServer = some s') : Turn s' := by
  obtain ⟨p, ps, hp, rfl⟩ := next_toServer hs
  cases h with
  | waits c g old starts acks cs ss hc hold hstarts hacks hg hold' hcount =>
      cases old with
      | cons p' old =>
          cases hp
          obtain ⟨hfirst, hrest⟩ := List.forall_mem_cons.mp hold
          have hidle : g.stressTestActive = false := by
            rw [← Bool.not_eq_true]
            exact fun hactive => nomatch hold' hactive
          dsimp only
          rw [onRecvPacket_of_idle hidle hfirst, fromServer_nil]
          exact .waits c g old starts acks cs ss hc hrest hstarts hacks hg
            (fun hactive => nomatch hold' hactive) hcount
      | nil =>
          cases starts with
          | nil => nomatch hp
          | cons p' starts =>
              cases hp
              obtain ⟨hfirst, hrest⟩ := List.forall_mem_cons.mp hstarts
              obtain ⟨d, rfl⟩ := hfirst.exists_eq
              have hacks' : ∀ q ∈ acks ++ [.stressStart], q.IsStart :=
                forall_mem_snoc hacks trivial
              have hsome : acks ++ [ServerPacket.stressStart] ≠ [] :=
                List.append_ne_nil_of_right_ne_nil _ (List.cons_ne_nil _ _)
              exact .waits c ⟨true, d, ∅, 0⟩ [] ps (acks ++ [.stressStart]) cs _ hc
                (List.forall_mem_nil _) hrest hacks' (iff_of_true rfl hsome) (fun _ => rfl)
                (fun _ => hcount (.inl (List.cons_ne_nil _ _)))
  | sends c g starts datas acks echoes cs ss hc hg hstarts hdatas hacks hechoes hfirst hcount hlt
      hseq hsent htimer =>
      cases starts with
      | cons p' starts =>
          cases hp
          obtain ⟨hp, hrest⟩ := List.forall_mem_cons.mp hstarts
          obtain ⟨d, rfl⟩ := hp.exists_eq
          obtain rfl := hfirst (List.cons_ne_nil _ _)
          have hzero := hcount (.inl (List.cons_ne_nil _ _))
          have hacks' : ∀ q ∈ acks ++ [.stressStart], q.IsStart :=
            forall_mem_snoc hacks trivial
          have hturn := Turn.sends c ⟨true, d, ∅, 0⟩ starts datas (acks ++ [.stressStart]) [] cs
            (ss ++ [.stressStart]) hc rfl hrest hdatas hacks' hechoes (fun _ => rfl)
            (fun _ => hzero) hlt hseq hsent htimer
          rw [List.append_nil] at hturn
          dsimp only
          rw [List.append_nil]
          exact hturn
      | nil =>
          cases datas with
          | nil => nomatch hp
          | cons p' datas =>
              cases hp
              obtain ⟨hp, hrest⟩ := List.forall_mem_cons.mp hdatas
              obtain ⟨n, rfl⟩ := hp.exists_eq
              have hechoes' : ∀ q ∈ echoes ++ [.stressData n], q.IsEcho :=
                forall_mem_snoc hechoes trivial
              have hturn := Turn.sends c { g with
                receivedMessages := insert n g.receivedMessages
                lastReceivedSeq := max g.lastReceivedSeq n } [] ps acks
                (echoes ++ [.stressData n]) cs (ss ++ [.stressData n]) hc hg hstarts hrest hacks
                hechoes' (fun hne => absurd rfl hne) hcount hlt hseq (by
                  rw [List.length_append, List.length_singleton]
                  rw [List.length_cons] at hsent
                  omega) htimer
              rw [← List.append_assoc] at hturn
              dsimp only
              rw [StressServer.onRecvPacket_data hg]
              exact hturn
  | ends c g ps' echoes cs ss hc hg hps hend hechoes =>
      cases hp
      obtain ⟨hfirst, hrest⟩ := List.forall_mem_cons.mp hps
      cases p with
      | stressStart d => exact absurd trivial hfirst
      | stressData n =>
          have hechoes' : ∀ q ∈ echoes ++ [.stressData n], q.IsEcho :=
            forall_mem_snoc hechoes trivial
          have hend' : .stressEnd ∈ ps := by
            rcases List.mem_cons.mp hend with h | h
            · nomatch h
            · exact h
          dsimp only
          rw [StressServer.onRecvPacket_data hg]
          exact .ends c _ ps _ cs _ hc hg hrest hend' hechoes'
      | stressEnd =>
          dsimp only
          rw [StressServer.onRecvPacket_end hg]
          exact .closes c _ ps echoes g.stressTestResult cs _ hc rfl hrest hechoes
  | closes c g ps' echoes result cs ss hc hg hps hechoes =>
      cases hp
      obtain ⟨hfirst, hrest⟩ := List.forall_mem_cons.mp hps
      dsimp only
      rw [onRecvPacket_of_idle hg hfirst, fromServer_nil]
      exact .closes c g ps echoes result cs ss hc hg hrest hechoes

/-- The test is begun: the first message follows what was sent before. -/
theorem Turn.begin {c : StressClient} {g : StressServer} {starts datas : List ClientPacket}
    {acks echoes : List ServerPacket} {r : StressClient × List ClientPacket}
    (cs : List ClientPacket) (ss : List ServerPacket) (hr : c.onRecvPacket .stressStart = some r)
    (hN : 1 ≤ c.stressTestConfig.messageCount) (hg : g.stressTestActive = true)
    (hstarts : ∀ p ∈ starts, p.IsStart) (hdatas : ∀ p ∈ datas, p.IsData)
    (hacks : ∀ p ∈ acks, p.IsStart) (hechoes : ∀ p ∈ echoes, p.IsEcho)
    (hfirst : starts ≠ [] → echoes = []) (hzero : c.stressTestReceivedCount = 0) :
    Turn ⟨r.1, g, (starts ++ datas) ++ r.2, acks ++ echoes, cs ++ r.2, ss⟩ := by
  obtain rfl := Option.some.inj ((StressClient.onRecvPacket_start hN).symm.trans hr)
  have hdatas' : ∀ q ∈ datas ++ [.stressData 1], q.IsData :=
    forall_mem_snoc hdatas trivial
  have hturn := Turn.sends { c with
    stressTestActive := true
    stressTestCurrentSeq := 1
    waiting := c.waiting || decide (1 < c.stressTestConfig.messageCount) } g starts
    (datas ++ [.stressData 1]) acks echoes (cs ++ [.stressData 1]) ss rfl hg hstarts hdatas' hacks
    hechoes hfirst (fun _ => hzero) (by
      dsimp only
      omega) hN (by
      rw [List.length_append, List.length_singleton]
      dsimp only
      omega) (fun hlt => .inl (by
      dsimp only at hlt ⊢
      rw [decide_eq_true hlt, Bool.or_true]))
  rw [← List.append_assoc] at hturn
  exact hturn

/-- An active client stays so at an echo, and sends nothing but the end. -/
theorem echo_frame {c : StressClient} {n : Nat} {r : StressClient × List ClientPacket}
    (hactive : c.stressTestActive = true) (h : c.onRecvPacket (.stressData n) = some r) :
    r.1.stressTestActive = true ∧ ∀ p ∈ r.2, ¬ p.IsStart := by
  obtain ⟨p, rfl⟩ := StressClient.onRecvPacket_echo_eq_some hactive h
  refine ⟨hactive, ?_⟩
  dsimp only
  split
  · exact List.forall_mem_singleton.mpr id
  · exact List.forall_mem_nil _

/-- **A packet arrives at the client.** -/
theorem Turn.toClient (h : Turn s) (hcounted : s.Counted .toClient)
    (hs : s.next .toClient = some s') : Turn s' := by
  obtain ⟨p, ps, r, hp, hr, rfl⟩ := next_toClient hs
  cases h with
  | waits c g old starts acks cs ss hc hold hstarts hacks hg hold' hcount =>
      cases hp
      obtain ⟨hfirst, hrest⟩ := List.forall_mem_cons.mp hacks
      obtain rfl := hfirst.eq
      have hactive := hg.mpr (List.cons_ne_nil _ _)
      obtain rfl := hold' hactive
      have hturn := Turn.begin cs ss hr (hcounted rfl rfl) hactive hstarts
        (List.forall_mem_nil _) hrest (List.forall_mem_nil _) (fun _ => rfl)
        (hcount (.inr (List.cons_ne_nil _ _)))
      rw [List.append_nil, List.append_nil] at hturn
      exact hturn
  | sends c g starts datas acks echoes cs ss hc hg hstarts hdatas hacks hechoes hfirst hcount hlt
      hseq hsent htimer =>
      cases acks with
      | cons p' acks =>
          cases hp
          obtain ⟨hp, hrest⟩ := List.forall_mem_cons.mp hacks
          obtain rfl := hp.eq
          exact Turn.begin cs ss hr (hcounted rfl rfl) hg hstarts hdatas hrest hechoes hfirst
            (hcount (.inr (List.cons_ne_nil _ _)))
      | nil =>
          cases echoes with
          | nil => nomatch hp
          | cons p' echoes =>
              cases hp
              obtain ⟨hp, hrest⟩ := List.forall_mem_cons.mp hechoes
              obtain ⟨n, rfl⟩ := hp.exists_eq
              obtain ⟨progress, rfl⟩ := StressClient.onRecvPacket_echo_eq_some hc hr
              have hmod : u32 (c.stressTestReceivedCount + 1) = c.stressTestReceivedCount + 1 :=
                Nat.mod_eq_of_lt (lt_of_le_of_lt hlt c.stressTestConfig.messageCount_lt)
              obtain rfl : starts = [] := by
                by_contra hne
                nomatch hfirst hne
              rw [hmod]
              have hc' : { c with
                  stressTestReceivedCount := c.stressTestReceivedCount + 1
                  lastReportedProgress := progress }.stressTestActive = true := hc
              by_cases hlast : c.stressTestConfig.messageCount ≤ c.stressTestReceivedCount + 1
              · rw [if_pos hlast]
                refine .ends _ g (datas ++ [.stressEnd]) ps _ ss hc' hg ?_
                  (List.mem_append_right _ (List.mem_singleton_self _)) hrest
                exact forall_mem_snoc (fun q hq => (hdatas q hq).not_isStart) id
              · rw [if_neg hlast, fromClient_nil]
                rw [List.length_cons] at hsent
                exact .sends _ g [] datas [] ps cs ss hc' hg hstarts hdatas hacks hrest
                  (fun hne => absurd rfl hne) (fun hne => by simp at hne)
                  (Nat.lt_of_not_le hlast) hseq (by dsimp only; omega) htimer
  | ends c g ps' echoes cs ss hc hg hps hend hechoes =>
      cases hp
      obtain ⟨hfirst, hrest⟩ := List.forall_mem_cons.mp hechoes
      obtain ⟨n, rfl⟩ := hfirst.exists_eq
      obtain ⟨hc', hsent⟩ := echo_frame hc hr
      exact .ends r.1 g (ps' ++ r.2) ps _ ss hc' hg (List.forall_mem_append.mpr ⟨hps, hsent⟩)
        (List.mem_append_left _ hend) hrest
  | closes c g ps' echoes result cs ss hc hg hps hechoes =>
      cases echoes with
      | nil =>
          cases hp
          cases hr
          rw [fromClient_nil]
          have hturn := Turn.waits { c with stressTestActive := false } g ps' [] [] cs ss rfl hps
            (List.forall_mem_nil _) (List.forall_mem_nil _)
            (iff_of_false (by rw [hg]; exact Bool.false_ne_true) fun hne => hne rfl)
            (fun hactive => absurd (hactive.symm.trans hg) Bool.noConfusion)
            (fun hne => absurd hne (by simp))
          rw [List.append_nil] at hturn
          exact hturn
      | cons p' echoes =>
          cases hp
          obtain ⟨hfirst, hrest⟩ := List.forall_mem_cons.mp hechoes
          obtain ⟨n, rfl⟩ := hfirst.exists_eq
          obtain ⟨hc', hsent⟩ := echo_frame hc hr
          exact .closes r.1 g (ps' ++ r.2) echoes result _ ss hc' hg
            (List.forall_mem_append.mpr ⟨hps, hsent⟩) hrest

/-- **The wait on the timer is over.** -/
theorem Turn.expire (h : Turn s) (hs : s.next .expire = some s') : Turn s' := by
  obtain ⟨c', hc', rfl⟩ := next_expire hs
  obtain ⟨-, rfl⟩ := StressClient.expire_eq_some hc'
  cases h with
  | waits c g old starts acks cs ss hc hold hstarts hacks hg hold' hcount =>
      exact .waits _ g old starts acks cs ss hc hold hstarts hacks hg hold' hcount
  | sends c g starts datas acks echoes cs ss hc hg hstarts hdatas hacks hechoes hfirst hcount hlt
      hseq hsent htimer =>
      exact .sends _ g starts datas acks echoes cs ss hc hg hstarts hdatas hacks hechoes hfirst
        hcount hlt hseq hsent fun _ => .inr (Nat.succ_pos _)
  | ends c g ps echoes cs ss hc hg hps hend hechoes =>
      exact .ends _ g ps echoes cs ss hc hg hps hend hechoes
  | closes c g ps echoes result cs ss hc hg hps hechoes =>
      exact .closes _ g ps echoes result cs ss hc hg hps hechoes

/-- **A handler of the timer is called.** -/
theorem Turn.timer (h : Turn s) (hs : s.next .timer = some s') : Turn s' := by
  obtain ⟨r, hr, rfl⟩ := next_timer hs
  obtain ⟨hactive, hreceived, hsent, hnone⟩ := StressClient.onTimer_frame hr
  cases h with
  | waits c g old starts acks cs ss hc hold hstarts hacks hg hold' hcount =>
      rw [hnone hc, fromClient_nil]
      exact .waits r.1 g old starts acks cs ss (hactive.trans hc) hold hstarts hacks hg hold'
        fun hne => hreceived.trans (hcount hne)
  | sends c g starts datas acks echoes cs ss hc hg hstarts hdatas hacks hechoes hfirst hcount hlt
      hseq hfew htimer =>
      obtain ⟨hdue, rfl⟩ := StressClient.onTimer_eq_some hr
      dsimp only
      rw [if_pos hc]
      by_cases hmore : c.stressTestCurrentSeq < c.stressTestConfig.messageCount
      · rw [StressClient.sendStressTestData_of_lt (c := { c with due := c.due - 1 }) hc hmore]
        have hdatas' : ∀ q ∈ datas ++ [.stressData (c.stressTestCurrentSeq + 1)], q.IsData :=
          forall_mem_snoc hdatas trivial
        have hturn := Turn.sends { c with
          stressTestCurrentSeq := c.stressTestCurrentSeq + 1
          waiting := c.waiting ||
            decide (c.stressTestCurrentSeq + 1 < c.stressTestConfig.messageCount)
          due := c.due - 1 } g starts (datas ++ [.stressData (c.stressTestCurrentSeq + 1)]) acks
          echoes (cs ++ [.stressData (c.stressTestCurrentSeq + 1)]) ss hc hg hstarts hdatas' hacks
          hechoes hfirst hcount hlt hmore (by
            rw [List.length_append, List.length_singleton]
            dsimp only
            omega) (fun hnext => .inl (by
            dsimp only at hnext ⊢
            rw [decide_eq_true hnext, Bool.or_true]))
        rw [← List.append_assoc] at hturn
        exact hturn
      · rw [StressClient.sendStressTestData_of_le (c := { c with due := c.due - 1 })
          (Nat.le_of_not_lt hmore), fromClient_nil]
        exact .sends _ g starts datas acks echoes cs ss hc hg hstarts hdatas hacks hechoes hfirst
          hcount hlt hseq hfew fun hnext => absurd hnext hmore
  | ends c g ps echoes cs ss hc hg hps hend hechoes =>
      exact .ends r.1 g (ps ++ r.2) echoes _ ss (hactive.trans hc) hg
        (List.forall_mem_append.mpr ⟨hps, fun q hq => (hsent q hq).not_isStart⟩)
        (List.mem_append_left _ hend) hechoes
  | closes c g ps echoes result cs ss hc hg hps hechoes =>
      exact .closes r.1 g (ps ++ r.2) echoes result _ ss (hactive.trans hc) hg
        (List.forall_mem_append.mpr ⟨hps, fun q hq => (hsent q hq).not_isStart⟩) hechoes

/-- **One step.** -/
theorem Turn.step (h : Turn s) {l : StressStep} (hl : s.Counted l) (hs : s.next l = some s') :
    Turn s' := by
  cases l with
  | request d => exact h.request hs
  | toServer => exact h.toServer hs
  | toClient => exact h.toClient hl hs
  | expire => exact h.expire hs
  | timer => exact h.timer hs

/-- **One run**, from sessions that are idle. -/
theorem turn_of_reach {c : StressClient} {g : StressServer} (hc : c.stressTestActive = false)
    (hg : g.stressTestActive = false) (hr : Reach next Counted (start c g) s) : Turn s := by
  refine hr.invariant ?_ fun t t' l ht hl hs => ht.step hl hs
  exact .waits c g [] [] [] [] [] hc (fun _ hp => nomatch hp) (fun _ hp => nomatch hp)
    (fun _ hp => nomatch hp)
    (iff_of_false (by rw [hg]; exact Bool.false_ne_true) fun hne => hne rfl)
    (fun _ => rfl) (fun hne => absurd hne (by simp))

/-! ## 4. A test without messages -/

/-- **The client has begun a test of no messages**: both sides are in it, and nothing but further
    starts and confirmations is on the way. -/
structure Stuck (s : StressTest) : Prop where
  client : s.client.stressTestActive = true
  config : s.client.stressTestConfig.messageCount = 0
  server : s.server.stressTestActive = true
  toServer : ∀ p ∈ s.toServer, p.IsStart
  toClient : ∀ p ∈ s.toClient, p.IsStart

/-- What is on the way, and the timer. -/
def pending (s : StressTest) : Nat :=
  2 * s.toServer.length + s.toClient.length + (if s.client.waiting then 2 else 0) + s.client.due

/-- **No step leads out**, and each but a request leaves less pending. -/
theorem Stuck.step (h : Stuck s) {l : StressStep} (hs : s.next l = some s') :
    Stuck s' ∧ ((∀ d, l ≠ .request d) → s'.pending < s.pending) := by
  cases l with
  | request d =>
      rw [next_request hs]
      rcases s.client.requestStressTest_cases d with ⟨-, hsame⟩ | ⟨hidle, -⟩
      · rw [hsame, fromClient_nil]
        exact ⟨h, fun hno => absurd rfl (hno d)⟩
      · exact absurd (h.client.symm.trans hidle) Bool.noConfusion
  | toServer =>
      obtain ⟨p, ps, hp, rfl⟩ := next_toServer hs
      obtain ⟨hfirst, hstarts⟩ := List.forall_mem_cons.mp (hp ▸ h.toServer)
      obtain ⟨d, rfl⟩ := hfirst.exists_eq
      refine ⟨⟨h.client, h.config, rfl, hstarts,
        forall_mem_snoc h.toClient trivial⟩,
        fun _ => ?_⟩
      unfold pending fromServer StressServer.onRecvPacket
      dsimp only
      rw [hp, List.length_append, List.length_singleton, List.length_cons]
      omega
  | toClient =>
      obtain ⟨p, ps, r, hp, hr, rfl⟩ := next_toClient hs
      obtain ⟨hfirst, hacks⟩ := List.forall_mem_cons.mp (hp ▸ h.toClient)
      obtain rfl := hfirst.eq
      obtain rfl := Option.some.inj
        ((StressClient.onRecvPacket_start_of_none h.config).symm.trans hr)
      rw [fromClient_nil]
      refine ⟨⟨rfl, h.config, h.server, h.toServer, hacks⟩, fun _ => ?_⟩
      unfold pending
      dsimp only
      rw [hp, List.length_cons]
      omega
  | expire =>
      obtain ⟨c', hc', rfl⟩ := next_expire hs
      obtain ⟨hwaiting, rfl⟩ := StressClient.expire_eq_some hc'
      refine ⟨⟨h.client, h.config, h.server, h.toServer, h.toClient⟩, fun _ => ?_⟩
      unfold pending
      dsimp only
      rw [hwaiting, if_pos rfl, if_neg Bool.false_ne_true]
      omega
  | timer =>
      obtain ⟨r, hr, rfl⟩ := next_timer hs
      obtain ⟨hdue, rfl⟩ := StressClient.onTimer_of_done hr (.inr (by
        rw [h.config]
        exact Nat.zero_le _))
      rw [fromClient_nil]
      refine ⟨⟨h.client, h.config, h.server, h.toServer, h.toClient⟩, fun _ => ?_⟩
      unfold pending
      dsimp only
      omega

/-- A stuck state where something is pending has a step. -/
theorem Stuck.quiet_or (h : Stuck s) :
    s.Quiet ∨ ∃ l s', (∀ d, l ≠ .request d) ∧ s.next l = some s' := by
  by_cases htoServer : s.toServer = []
  · by_cases htoClient : s.toClient = []
    · by_cases hwaiting : s.client.waiting = true
      · obtain ⟨s', hs⟩ : ∃ s', s.next .expire = some s' := by
          unfold next StressClient.expire
          dsimp only
          rw [if_pos hwaiting]
          exact ⟨_, rfl⟩
        exact .inr ⟨.expire, s', nofun, hs⟩
      · by_cases hdue : s.client.due = 0
        · exact .inl ⟨htoServer, htoClient, Bool.not_eq_true _ ▸ hwaiting, hdue⟩
        · obtain ⟨s', hs⟩ : ∃ s', s.next .timer = some s' := by
            unfold next StressClient.onTimer
            dsimp only
            rw [if_neg hdue]
            exact ⟨_, rfl⟩
          exact .inr ⟨.timer, s', nofun, hs⟩
    · obtain ⟨p, ps, hp⟩ := List.exists_cons_of_ne_nil htoClient
      obtain rfl := (h.toClient p (hp ▸ List.mem_cons_self ..)).eq
      obtain ⟨s', hs⟩ : ∃ s', s.next .toClient = some s' := by
        unfold next
        dsimp only
        rw [hp]
        exact ⟨_, rfl⟩
      exact .inr ⟨.toClient, s', nofun, hs⟩
  · obtain ⟨p, ps, hp⟩ := List.exists_cons_of_ne_nil htoServer
    obtain ⟨s', hs⟩ : ∃ s', s.next .toServer = some s' := by
      unfold next
      dsimp only
      rw [hp]
      exact ⟨_, rfl⟩
    exact .inr ⟨.toServer, s', nofun, hs⟩

/-- **A stuck state comes to rest**, by induction on what is pending. -/
theorem Stuck.exists_quiet (h : Stuck s) : ∃ t, Reach next always s t ∧ t.Quiet := by
  generalize hn : s.pending = n
  induction n using Nat.strong_induction_on generalizing s with
  | _ n ih =>
      rcases h.quiet_or with hquiet | ⟨l, s', hl, hs⟩
      · exact ⟨s, .start, hquiet⟩
      · obtain ⟨h', hlt⟩ := h.step hs
        obtain ⟨t, hr, hquiet⟩ := ih s'.pending (hn ▸ hlt hl) h' rfl
        exact ⟨t, (Reach.step s s' l .start trivial hs).trans hr, hquiet⟩

/-- A confirmation that is handled with a count of 0 leaves the client stuck. -/
theorem Turn.stuck (h : Turn s) (hstart : s.toClient.head? = some .stressStart)
    (hnone : s.client.stressTestConfig.messageCount = 0) (hs : s.next .toClient = some s') :
    Stuck s' := by
  obtain ⟨p, ps, r, hp, hr, rfl⟩ := next_toClient hs
  rw [hp, List.head?_cons] at hstart
  cases hstart
  obtain rfl := Option.some.inj
    ((StressClient.onRecvPacket_start_of_none hnone).symm.trans hr)
  rw [fromClient_nil]
  cases h with
  | waits c g old starts acks cs ss hc hold hstarts hacks hg hold' hcount =>
      cases hp
      have hactive := hg.mpr (List.cons_ne_nil _ _)
      obtain rfl := hold' hactive
      exact ⟨rfl, hnone, hactive, hstarts, fun q hq => hacks q (List.mem_cons_of_mem _ hq)⟩
  | sends c g starts datas acks echoes cs ss hc hg hstarts hdatas hacks hechoes hfirst hcount hlt =>
      exact absurd (hnone ▸ hlt) (Nat.not_lt_zero _)
  | ends c g ps' echoes cs ss hc hg hps hend hechoes =>
      cases hp
      exact (hechoes _ (List.mem_cons_self ..)).elim
  | closes c g ps' echoes result cs ss hc hg hps hechoes =>
      cases echoes with
      | nil => nomatch hp
      | cons p' echoes =>
          cases hp
          exact (hechoes _ (List.mem_cons_self ..)).elim

/-- **A stress test gets stuck just where a test of no messages is begun**: on the runs without
    one, whatever is requested and when, a quiet state is idle; once one is begun, no state is idle
    any more, and a quiet one is reached. -/
theorem stress_test_idle (c : StressClient) (g : StressServer) (hc : c.stressTestActive = false)
    (hg : g.stressTestActive = false) :
    (∀ s, Reach next Counted (start c g) s → s.Quiet → s.Idle) ∧
    ∀ s s', Reach next Counted (start c g) s → s.toClient.head? = some .stressStart →
      s.client.stressTestConfig.messageCount = 0 → s.next .toClient = some s' →
      (∀ t, Reach next always s' t → ¬ t.Idle) ∧ ∃ t, Reach next always s' t ∧ t.Quiet := by
  refine ⟨fun s hr hquiet => (turn_of_reach hc hg hr).idle hquiet,
    fun s s' hr hstart hnone hs => ?_⟩
  have hstuck := (turn_of_reach hc hg hr).stuck hstart hnone hs
  refine ⟨fun t ht hidle => ?_, hstuck.exists_quiet⟩
  have ht' : Stuck t := ht.invariant hstuck fun _ _ _ h _ hstep => (h.step hstep).1
  exact absurd (ht'.client.symm.trans hidle.1) Bool.noConfusion

instance (s : StressTest) (l : StressStep) : Decidable (s.Counted l) :=
  inferInstanceAs (Decidable (l = .toClient → s.toClient.head? = some .stressStart →
    1 ≤ s.client.stressTestConfig.messageCount))

/-- A test of one message, requested twice, ends with both sides idle. -/
theorem stress_test_idle_twice :
    ∃ s, Reach next Counted
        (start ⟨false, oneMessage, 0, 0, 0, false, 0⟩ ⟨false, oneMessage, ∅, 0⟩) s ∧
      s.serverSent.length = 5 ∧ s.Quiet ∧ s.Idle := by
  have hr : Reach next Counted
      (start ⟨false, oneMessage, 0, 0, 0, false, 0⟩ ⟨false, oneMessage, ∅, 0⟩)
      ⟨⟨false, oneMessage, 1, 2, 200, false, 0⟩, ⟨false, oneMessage, {1}, 1⟩, [], [],
        [.stressStart oneMessage, .stressStart oneMessage, .stressData 1, .stressData 1, .stressEnd,
          .stressEnd],
        [.stressStart, .stressStart, .stressData 1, .stressData 1, .stressResult ⟨1, 1, 0⟩]⟩ :=
    .of_exec [.request oneMessage, .request oneMessage, .toServer, .toServer, .toClient, .toClient,
      .toServer, .toServer, .toClient, .toClient, .toServer, .toServer, .toClient] rfl
  exact ⟨_, hr, rfl, ⟨rfl, rfl, rfl, rfl⟩,
    (stress_test_idle _ _ rfl rfl).1 _ hr ⟨rfl, rfl, rfl, rfl⟩⟩

/-- **A test of no messages**: it is accepted and confirmed, and nothing more comes of it. -/
theorem stress_test_of_none_stuck :
    ∃ d s, d.messageCount = 0 ∧ d.messageSize ≤ 4000 ∧
      Reach next always (start ⟨false, oneMessage, 0, 0, 0, false, 0⟩ ⟨false, oneMessage, ∅, 0⟩) s ∧
      .stressStart d ∈ s.clientSent ∧ s.Quiet ∧ s.client.stressTestActive = true ∧
      s.server.stressTestActive = true := by
  refine ⟨⟨0, 0, 0, by decide, by decide, by decide⟩,
    ⟨⟨true, ⟨0, 0, 0, by decide, by decide, by decide⟩, 0, 0, 0, false, 0⟩,
      ⟨true, ⟨0, 0, 0, by decide, by decide, by decide⟩, ∅, 0⟩, [], [],
      [.stressStart ⟨0, 0, 0, by decide, by decide, by decide⟩], [.stressStart]⟩,
    rfl, by decide, ?_, List.mem_singleton_self _, ⟨rfl, rfl, rfl, rfl⟩, rfl, rfl⟩
  exact .of_exec [.request ⟨0, 0, 0, by decide, by decide, by decide⟩, .toServer, .toClient] rfl

end StressTest

end ServerCore
