/-
  File:      ServerCore/ServiceAccept.lean
  Subject:   The accept loop of a ServerService: one chain of accepts, and where it ends.

  `StartAccept` hands one `async_accept` to asio, and the handler of that accept calls
  `StartAccept` again. So there is one accept outstanding or one thread between an accept and the
  next (`AcceptChain`), on every run. A `StartAccept` that finds the service full issues nothing,
  and nothing else ever calls it: the chain has come to its end, however many sessions leave
  afterwards (`accept_law`).

  Closing the acceptor ends the chain only by chance: the handler of the aborted accept calls
  `StartAccept` all the same, which asks for room and not for the acceptor (`accept_close_law`).
-/
import ServerCore.ServiceMachine

namespace ServerCore

open Trans

/-! ## 1. The chain -/

/-- The thread is between an accept and the next: inside `StartAccept` or the accept handler. -/
def ServicePc.accepting : ServicePc → Bool
  | .acceptLimit | .acceptIssue | .acceptTest _ => true
  | .connecting .accept _ _ | .registering (.processConnect .accept) _ _
  | .disconnecting .accept _ _ => true
  | _ => false

/-- The thread is inside `Disconnect`. -/
def ServicePc.disconnects : ServicePc → Bool
  | .disconnecting _ _ _ => true
  | _ => false

/-- Returning keeps the place in the chain. -/
theorem RecvCaller.accepting_return (r : RecvCaller) (i : Sid) (p : RegisterPc) :
    r.return.accepting = (ServicePc.registering r i p).accepting := by
  rcases r with c | _
  · cases c <;> rfl
  · rfl

theorem DisconnectCaller.accepting_return (d : DisconnectCaller) (i : Sid) (p : DisconnectPc) :
    d.return.accepting = (ServicePc.disconnecting d i p).accepting := by
  cases d <;> rfl

/-- **What a step does to the chain**: nothing, or the next accept is issued, or it ends because
    the service is full. -/
inductive AcceptMove (limit : Int) (s s' : ServiceState) (p p' : ServicePc) : Prop where
  | keep (hp : p'.accepting = p.accepting) (ha : s'.accepts = s.accepts)
  | issue (hp : p.accepting = true) (hp' : p'.accepting = false)
      (ha : s'.accepts = s.accepts + 1)
  | stop (hp : p = .acceptLimit) (hfull : limit ≤ s.sessionCount) (hp' : p' = .idle)
      (ha : s'.accepts = s.accepts)

theorem serviceStep_accept {limit : Int} {t : Tid} {s s' : ServiceState} {p p' : ServicePc}
    (h : serviceStep limit t s p = some (s', p')) : AcceptMove limit s s' p p' := by
  cases serviceAction_of_step h with
  | full hfull => exact .stop rfl hfull rfl rfl
  | issueAccept => exact .issue rfl rfl rfl
  | store k | connectAcquire k | insert k | countUp k | connectRelease k | onConnected k =>
      exact .keep (by cases k <;> rfl) rfl
  | register r i hconn => exact .keep (by rcases r with (_ | _) | _ <;> rfl) rfl
  | registerDead r i hdead => exact .keep (r.accepting_return i _) rfl
  | issueReceive r i => exact .keep (r.accepting_return i _) rfl
  | exchange d | close d | onDisconnected d | disconnectAcquire d | erase d | countDown d =>
      exact .keep (by cases d <;> rfl) rfl
  | exchangeIgnored d i hdead => exact .keep (d.accepting_return i _) rfl
  | disconnectRelease d i => exact .keep (d.accepting_return i _) rfl
  | _ => exact .keep rfl rfl

/-- **The accept chain** with `n` links: `n = 1` while it runs, with an accept outstanding or one
    thread on the way to the next; `n = 0` once it has ended. -/
def AcceptChain (c : ServiceConf) (n : Nat) : Prop :=
  ∃ o : Option Tid, (∀ u, (c.pc u).accepting = true ↔ o = some u) ∧
    c.sh.accepts + o.toList.length = n

theorem acceptChain_started : AcceptChain (.started true) 1 := by
  refine ⟨some 0, fun u => ?_, rfl⟩
  by_cases hu : u = 0
  · subst hu
    exact ⟨fun _ => rfl, fun _ => rfl⟩
  · have hpc : (ServiceConf.started true).pc u = .idle := by
      simp [ServiceConf.started, hu]
    rw [hpc]
    exact ⟨fun h => (nomatch h), fun h => absurd (Option.some.inj h).symm hu⟩

/-- A thread keeps its place, or its absence, in the chain. -/
theorem AcceptChain.keep {c : ServiceConf} {n : Nat} (hI : AcceptChain c n) {t : Tid}
    {sh : ServiceState} {p : ServicePc} (hp : p.accepting = (c.pc t).accepting)
    (ha : sh.accepts = c.sh.accepts) : AcceptChain (c.set t sh p) n := by
  obtain ⟨o, hthread, hn⟩ := hI
  refine ⟨o, fun u => ?_, by rw [ServiceConf.set_sh, ha]; exact hn⟩
  by_cases hu : u = t
  · subst hu
    rw [ServiceConf.set_pc_self, hp]
    exact hthread u
  · rw [c.set_pc_of_ne sh p hu]
    exact hthread u

/-- An idle thread starts elsewhere. -/
theorem AcceptChain.start {c : ServiceConf} {n : Nat} (hI : AcceptChain c n) {t : Tid}
    {sh : ServiceState} {p : ServicePc} (hidle : c.pc t = .idle) (hp : p.accepting = false)
    (ha : sh.accepts = c.sh.accepts) : AcceptChain (c.set t sh p) n :=
  hI.keep (by rw [hidle]; exact hp) ha

/-- The handler of the outstanding accept starts. -/
theorem AcceptChain.handler {c : ServiceConf} {n : Nat} (hI : AcceptChain c n) (hn1 : n ≤ 1)
    {t : Tid} {sh : ServiceState} {p : ServicePc} (hpos : 0 < c.sh.accepts)
    (hp : p.accepting = true) (ha : sh.accepts = c.sh.accepts - 1) :
    AcceptChain (c.set t sh p) n := by
  obtain ⟨o, hthread, hn⟩ := hI
  obtain rfl : o = none :=
    Option.toList_eq_nil_iff.mp (List.length_eq_zero_iff.mp (by omega))
  refine ⟨some t, fun u => ?_, ?_⟩
  · by_cases hu : u = t
    · subst hu
      rw [ServiceConf.set_pc_self]
      exact ⟨fun _ => rfl, fun _ => hp⟩
    · rw [c.set_pc_of_ne sh p hu]
      refine ⟨fun h => ?_, fun h => absurd (Option.some.inj h).symm hu⟩
      nomatch (hthread u).mp h
  · rw [ServiceConf.set_sh, ha]
    simp only [Option.toList_none, List.length_nil, Option.toList_some,
      List.length_singleton] at hn ⊢
    omega

/-- A thread leaves the chain. -/
theorem AcceptChain.leave {c : ServiceConf} {n m : Nat} (hI : AcceptChain c n) {t : Tid}
    {sh : ServiceState} {p : ServicePc} (ht : (c.pc t).accepting = true)
    (hp : p.accepting = false) (hm : sh.accepts + n = c.sh.accepts + 1 + m) :
    AcceptChain (c.set t sh p) m := by
  obtain ⟨o, hthread, hn⟩ := hI
  obtain rfl := (hthread t).mp ht
  refine ⟨none, fun u => ?_, ?_⟩
  · by_cases hu : u = t
    · subst hu
      rw [ServiceConf.set_pc_self, hp]
      exact ⟨fun h => (nomatch h), fun h => (nomatch h)⟩
    · rw [c.set_pc_of_ne sh p hu]
      refine ⟨fun h => ?_, fun h => (nomatch h)⟩
      exact absurd (Option.some.inj ((hthread u).mp h)).symm hu
  · rw [ServiceConf.set_sh]
    simp only [Option.toList_some, List.length_singleton, Option.toList_none,
      List.length_nil] at hn ⊢
    omega

/-- **One step**: the chain goes on, unless `StartAccept` finds the service full. -/
theorem AcceptChain.step {limit : Int} {c c' : ServiceConf} {l : ServiceLabel} {n : Nat}
    (hI : AcceptChain c n) (hn1 : n ≤ 1) (h : c.next limit l = some c') :
    AcceptChain c' n ∨
      ∃ t, l = .run t ∧ c.pc t = .acceptLimit ∧ limit ≤ c.sh.sessionCount ∧ AcceptChain c' 0 := by
  cases serviceStepped_of_next h with
  | acceptError t ha hidle => exact .inl (hI.handler hn1 ha rfl rfl)
  | accept t ha hidle => exact .inl (hI.handler hn1 ha rfl rfl)
  | connect t hidle | receive t i o hr hidle | write t i o hw hidle =>
      exact .inl (hI.start hidle rfl rfl)
  | hold i source hs => exact .inl hI
  | drop i hh => exact .inl hI
  | send t i hh hidle | disconnect t i hh hidle | closeService t hidle =>
      exact .inl (hI.start hidle rfl rfl)
  | visit t i visited hp hv hi hnew => exact .inl (hI.keep (by rw [hp]; rfl) rfl)
  | run t sh p hs =>
      rcases serviceStep_accept hs with ⟨hp, ha⟩ | ⟨hp, hp', ha⟩ | ⟨hp, hfull, hp', ha⟩
      · exact .inl (hI.keep hp ha)
      · exact .inl (hI.leave hp hp' (by rw [ha]))
      · have ht : (c.pc t).accepting = true := by rw [hp]; rfl
        have hlen : c.sh.accepts + 1 = n := by
          obtain ⟨o, hthread, hn⟩ := hI
          rw [(hthread t).mp ht] at hn
          exact hn
        refine .inr ⟨t, rfl, hp, hfull, hI.leave ht (by rw [hp']; rfl) ?_⟩
        rw [ha]
        omega

/-! ## 2. The law -/

/-- The service is waited for: the acceptor is open, there is room for a session, and no accept
    handler and no `Disconnect` is under way. -/
def Expectant (limit : Int) (c : ServiceConf) : Prop :=
  c.sh.acceptorOpen = true ∧ c.sh.sessionCount < limit ∧
    ∀ t, (c.pc t).accepting = false ∧ (c.pc t).disconnects = false

/-- **The server keeps accepting**: where it is waited for, exactly one accept is outstanding. -/
def KeepsAccepting (limit : Int) (c : ServiceConf) : Prop :=
  Expectant limit c → c.sh.accepts = 1

/-- No `StartAccept` finds the service full. -/
def BelowLimit (limit : Int) (c : ServiceConf) : ServiceLabel → Prop
  | .run t => c.pc t = .acceptLimit → c.sh.sessionCount < limit
  | _ => True

instance (limit : Int) (c : ServiceConf) : (l : ServiceLabel) → Decidable (BelowLimit limit c l)
  | .run t => inferInstanceAs (Decidable (c.pc t = .acceptLimit → c.sh.sessionCount < limit))
  | .accept _ _ | .connect _ | .receive _ _ _ | .write _ _ _ | .hold _ _ | .drop _ | .send _ _
  | .disconnect _ _ | .closeService _ | .visit _ _ => .isTrue trivial

/-- Where the chain has ended no accept is outstanding, and no thread is inside it. -/
theorem AcceptChain.ended {c : ServiceConf} (hI : AcceptChain c 0) :
    c.sh.accepts = 0 ∧ ∀ t, (c.pc t).accepting = false := by
  obtain ⟨o, hthread, hn⟩ := hI
  obtain rfl : o = none :=
    Option.toList_eq_nil_iff.mp (List.length_eq_zero_iff.mp (by omega))
  refine ⟨by simpa using hn, fun t => ?_⟩
  rw [Bool.eq_false_iff]
  exact fun h => nomatch (hthread t).mp h

/-- Below the limit one accept is in the chain, on every run. -/
theorem acceptChain_of_reach {limit : Int} {c : ServiceConf}
    (hr : Reach (ServiceConf.next limit) (BelowLimit limit) (.started true) c) :
    AcceptChain c 1 := by
  refine hr.invariant (I := fun c => AcceptChain c 1) acceptChain_started
    fun c₁ c₂ l hI hok h => ?_
  rcases hI.step (Nat.le_refl 1) h with hI' | ⟨t, rfl, hp, hfull, -⟩
  · exact hI'
  · have hlt := hok hp
    omega

/-- A chain that has ended stays so. -/
theorem AcceptChain.ended_run {limit : Int} {c c' : ServiceConf} (hI : AcceptChain c 0)
    (hr : Reach (ServiceConf.next limit) always c c') : AcceptChain c' 0 := by
  refine hr.invariant (I := fun c => AcceptChain c 0) hI fun c₁ c₂ l hI _ h => ?_
  rcases hI.step (Nat.zero_le 1) h with hI' | ⟨-, -, -, -, hI'⟩
  · exact hI'
  · exact hI'

/-- Over all runs the chain has one accept, or has ended. -/
theorem acceptChain_or_of_reach {limit : Int} {c : ServiceConf}
    (hr : Reach (ServiceConf.next limit) always (.started true) c) :
    AcceptChain c 1 ∨ AcceptChain c 0 := by
  refine hr.invariant (I := fun c => AcceptChain c 1 ∨ AcceptChain c 0)
    (.inl acceptChain_started) fun c₁ c₂ l hI _ h => ?_
  rcases hI with hI | hI
  · rcases hI.step (Nat.le_refl 1) h with hI' | ⟨-, -, -, -, hI'⟩
    · exact .inl hI'
    · exact .inr hI'
  · exact .inr (hI.ended_run (.step _ _ _ .start trivial h))

/-- **A `StartAccept` that finds the service full ends the chain.** -/
theorem AcceptChain.ends_full {limit : Int} {c c' : ServiceConf} {n : Nat} (hI : AcceptChain c n)
    (hn1 : n ≤ 1) {t : Tid} (hp : c.pc t = .acceptLimit) (hfull : limit ≤ c.sh.sessionCount)
    (h : c.next limit (.run t) = some c') : AcceptChain c' 0 := by
  have ht : (c.pc t).accepting = true := by
    rw [hp]
    rfl
  obtain ⟨o, hthread, hn⟩ := id hI
  obtain rfl := (hthread t).mp ht
  simp only [Option.toList_some, List.length_singleton] at hn
  simp only [ServiceConf.next, hp, serviceStep, if_pos hfull, Option.map_some,
    Option.some.injEq] at h
  rw [← h]
  exact hI.leave ht rfl (by omega)

/-- **When the server keeps accepting.** On every run in which no `StartAccept` finds the service
    full it does in every configuration; after one that does no accept is ever outstanding again,
    so it does not wherever it is waited for. -/
theorem accept_law (limit : Int) :
    (∀ c, Reach (ServiceConf.next limit) (BelowLimit limit) (.started true) c →
      KeepsAccepting limit c) ∧
    (∀ c c' t, Reach (ServiceConf.next limit) always (.started true) c →
      ¬ BelowLimit limit c (.run t) → c.next limit (.run t) = some c' →
      ∀ c'', Reach (ServiceConf.next limit) always c' c'' →
        c''.sh.accepts = 0 ∧ (KeepsAccepting limit c'' ↔ ¬ Expectant limit c'')) := by
  constructor
  · rintro c hr ⟨-, -, hquiet⟩
    obtain ⟨o, hthread, hn⟩ := acceptChain_of_reach hr
    cases o with
    | none => simpa using hn
    | some t =>
        have ht := (hthread t).mpr rfl
        rw [(hquiet t).1] at ht
        nomatch ht
  · intro c c' t hr hbad h c'' hr'
    simp only [BelowLimit, Classical.not_imp, Int.not_lt] at hbad
    have hended : AcceptChain c' 0 := by
      rcases acceptChain_or_of_reach hr with hI | hI
      · exact hI.ends_full (Nat.le_refl 1) hbad.1 hbad.2 h
      · exact hI.ends_full (Nat.zero_le 1) hbad.1 hbad.2 h
    have hzero := (hended.ended_run hr').ended.1
    refine ⟨hzero, fun hkeeps hexp => ?_, fun hnot hexp => absurd hexp hnot⟩
    have hone := hkeeps hexp
    omega

/-- The service starts, a client connects, and the first receive of its session is issued. -/
def clientRun : List ServiceLabel :=
  .run 0 :: .run 0 :: .accept 0 false :: List.replicate 9 (.run 0)

/-- The client goes: its receive fails on thread 1, which disconnects the session. -/
def leaveRun : List ServiceLabel := .receive 1 0 .error :: List.replicate 8 (.run 1)

/-- No thread but 0 and 1 ever moved in these runs. -/
theorem expectant_of_idle {limit : Int} {c : ServiceConf} (hopen : c.sh.acceptorOpen = true)
    (hroom : c.sh.sessionCount < limit) (hidle : ∀ t, c.pc t = .idle) : Expectant limit c := by
  refine ⟨hopen, hroom, fun t => ?_⟩
  rw [hidle t]
  exact ⟨rfl, rfl⟩

/-- The law with room for two sessions, and its failure with room for one. -/
theorem accept_law_runs :
    (∃ c, exec (ServiceConf.next 2) (BelowLimit 2) (.started true)
        (clientRun ++ [.run 0, .run 0] ++ leaveRun) = some c ∧ c.sh.sessionCount = 0 ∧
        KeepsAccepting 2 c) ∧
    (∃ c, exec (ServiceConf.next 1) always (.started true)
        (clientRun ++ [.run 0] ++ leaveRun) = some c ∧ c.sh.sessionCount = 0 ∧
        c.sh.accepts = 0) := by
  refine ⟨⟨_, rfl, rfl, (accept_law 2).1 _ (.of_exec (clientRun ++ [.run 0, .run 0] ++ leaveRun)
    rfl)⟩, ⟨_, rfl, rfl, ?_⟩⟩
  exact ((accept_law 1).2 _ _ 0 (.of_exec clientRun rfl) (by decide) rfl _
    (.of_exec leaveRun rfl)).1

/-- Room for one session: a client connects and goes, and the server is waited for in vain. -/
theorem accepts_end_when_full :
    ∃ c, Reach (ServiceConf.next 1) always (.started true) c ∧ Expectant 1 c ∧
      ¬ KeepsAccepting 1 c := by
  have hidle : ∀ c : ServiceConf, exec (ServiceConf.next 1) always (.started true)
      (clientRun ++ [.run 0] ++ leaveRun) = some c → ∀ t, c.pc t = .idle := by
    intro c hc t
    obtain rfl := Option.some.inj hc
    by_cases h0 : t = 0
    · subst h0
      rfl
    · by_cases h1 : t = 1
      · subst h1
        rfl
      · simp [ServiceConf.set_pc_of_ne, ServiceConf.started, h0, h1]
  have hexp : Expectant 1 _ := expectant_of_idle rfl (by decide) (hidle _ rfl)
  refine ⟨_, .of_exec (clientRun ++ [.run 0] ++ leaveRun) rfl, hexp, fun hkeeps => ?_⟩
  exact absurd (hkeeps hexp) (by decide)

/-! ## 3. The acceptor is closed -/

/-- **The accept loop is over where the acceptor is closed**: no thread is at `CreateSession` and
    `async_accept`. -/
def AcceptsOver (c : ServiceConf) : Prop :=
  c.sh.acceptorOpen = false → ∀ t, c.pc t ≠ .acceptIssue

/-- A step that keeps a closed acceptor from another accept: `CloseService` closes it where no
    thread is between the test of `StartAccept` and its `async_accept`, and where it is closed
    `StartAccept` finds the service full. -/
def EndsAccepting (limit : Int) (c : ServiceConf) : ServiceLabel → Prop
  | .closeService _ => ∀ u, c.pc u ≠ .acceptIssue
  | .run t =>
      c.sh.acceptorOpen = false → c.pc t = .acceptLimit → limit ≤ c.sh.sessionCount
  | _ => True

/-- Nothing but `CloseService` touches the acceptor. -/
theorem serviceStep_acceptorOpen {limit : Int} {t : Tid} {s s' : ServiceState} {p q : ServicePc}
    (h : serviceStep limit t s p = some (s', q)) : s'.acceptorOpen = s.acceptorOpen := by
  cases serviceAction_of_step h <;> rfl

/-- The way to `async_accept` leads through the test of `StartAccept`. -/
theorem serviceStep_acceptIssue {limit : Int} {t : Tid} {s s' : ServiceState} {p : ServicePc}
    (h : serviceStep limit t s p = some (s', .acceptIssue)) :
    p = .acceptLimit ∧ s.sessionCount < limit := by
  generalize hq : ServicePc.acceptIssue = q at h
  cases serviceAction_of_step h with
  | room hroom => exact ⟨rfl, hroom⟩
  | registerDead r | issueReceive r => rcases r with (_ | _) | _ <;> cases hq
  | exchangeIgnored d | disconnectRelease d => cases d <;> cases hq
  | _ => cases hq

/-- A thread that starts does not start at `async_accept`. -/
theorem AcceptsOver.set {c : ServiceConf} (hI : AcceptsOver c) {t : Tid} {sh : ServiceState}
    {p : ServicePc} (hopen : sh.acceptorOpen = c.sh.acceptorOpen)
    (hp : sh.acceptorOpen = false → p ≠ .acceptIssue) : AcceptsOver (c.set t sh p) := by
  intro hclosed
  rw [ServiceConf.set_sh] at hclosed
  exact ServiceConf.forall_pc_set (Q := (· ≠ .acceptIssue)) (hI (hopen ▸ hclosed)) (hp hclosed)

theorem AcceptsOver.step {limit : Int} {c c' : ServiceConf} {l : ServiceLabel}
    (hI : AcceptsOver c) (hok : EndsAccepting limit c l) (h : c.next limit l = some c') :
    AcceptsOver c' := by
  cases serviceStepped_of_next h with
  | acceptError t ha hidle | accept t ha hidle | connect t hidle | receive t i o hr hidle
  | write t i o hw hidle | send t i hh hidle | disconnect t i hh hidle
  | visit t i visited hp hv hi hnew => exact hI.set rfl (fun _ => by simp)
  | hold i source hs => exact hI
  | drop i hh => exact hI
  | closeService t hidle =>
      exact fun _ => ServiceConf.forall_pc_set (Q := (· ≠ .acceptIssue)) hok (by simp)
  | run t sh p hs =>
      refine hI.set (serviceStep_acceptorOpen hs) ?_
      rintro hclosed rfl
      obtain ⟨hp, hroom⟩ := serviceStep_acceptIssue hs
      have hfull := hok ((serviceStep_acceptorOpen hs).symm.trans hclosed) hp
      omega

/-- An accept that fails is followed by another: the handler and `StartAccept`, on thread `t`. -/
def rearm (t : Tid) : List ServiceLabel := [.accept t true, .run t, .run t]

/-- **With room for a session the failed accept is issued again**, and all is as before. -/
theorem exec_rearm {limit : Int} {c : ServiceConf} {t : Tid} (ha : 0 < c.sh.accepts)
    (hroom : c.sh.sessionCount < limit) (hidle : c.pc t = .idle) :
    exec (ServiceConf.next limit) always c (rearm t) = some c := by
  have haccept : c.next limit (.accept t true) =
      some (c.set t { c.sh with accepts := c.sh.accepts - 1 } .acceptLimit) := by
    simp [ServiceConf.next, ServiceConf.start, ha, hidle]
  have htest : serviceStep limit t { c.sh with accepts := c.sh.accepts - 1 } .acceptLimit =
      some ({ c.sh with accepts := c.sh.accepts - 1 }, .acceptIssue) := by
    simp [serviceStep, Int.not_le.mpr hroom]
  have hsame : c.set t { c.sh with accepts := c.sh.accepts - 1 + 1 } .idle = c := by
    rw [Nat.sub_add_cancel ha, ServiceConf.set, ← hidle, Function.update_eq_self]
  rw [rearm, exec_cons trivial haccept, exec_cons trivial (ServiceConf.next_set_run htest),
    exec_cons trivial (ServiceConf.next_set_run rfl)]
  exact congrArg some hsame

/-- **When closing the acceptor ends the accept loop.** On every run that closes it where no
    accept is about to be issued, and on which `StartAccept` finds the service full from then on,
    no accept is issued after the close. A step that is not like that leads to an accept on the
    closed acceptor; and while there is room, an accept that is aborted is issued again, without
    end. -/
theorem accept_close_law (limit : Int) :
    (∀ c, Reach (ServiceConf.next limit) (EndsAccepting limit) (.started true) c →
      AcceptsOver c) ∧
    (∀ c c' l, c.next limit l = some c' → ¬ EndsAccepting limit c l →
      ∃ t c'', c'.sh.acceptorOpen = false ∧ c'.pc t = .acceptIssue ∧
        c'.next limit (.run t) = some c'' ∧ c''.sh.accepts = c'.sh.accepts + 1) ∧
    ∀ c t n, c.sh.acceptorOpen = false → 0 < c.sh.accepts → c.sh.sessionCount < limit →
      c.pc t = .idle →
      exec (ServiceConf.next limit) always c (List.replicate n (rearm t)).flatten = some c := by
  refine ⟨fun c hr => hr.invariant (I := AcceptsOver) (fun hclosed => absurd hclosed (by decide))
    fun _ _ _ hI hok h => hI.step hok h, ?_, ?_⟩
  · intro c c' l h hbad
    have hissue : ∀ {t}, c'.sh.acceptorOpen = false → c'.pc t = .acceptIssue →
        ∃ t c'', c'.sh.acceptorOpen = false ∧ c'.pc t = .acceptIssue ∧
          c'.next limit (.run t) = some c'' ∧ c''.sh.accepts = c'.sh.accepts + 1 := by
      intro t hclosed hp
      refine ⟨t, c'.set t { c'.sh with accepts := c'.sh.accepts + 1 } .idle, hclosed, hp, ?_, rfl⟩
      rw [ServiceConf.next, hp]
      rfl
    cases serviceStepped_of_next h with
    | closeService t hidle =>
        simp only [EndsAccepting, ne_eq, not_forall, not_not] at hbad
        obtain ⟨u, hu⟩ := hbad
        have hut : u ≠ t := by
          rintro rfl
          rw [hidle] at hu
          cases hu
        exact hissue (t := u) rfl ((c.set_pc_of_ne _ _ hut).trans hu)
    | run t sh p hs =>
        simp only [EndsAccepting, Classical.not_imp, Int.not_le] at hbad
        obtain ⟨hclosed, hp, hroom⟩ := hbad
        rw [hp] at hs
        simp only [serviceStep, if_neg (Int.not_le.mpr hroom), Option.some.injEq,
          Prod.mk.injEq] at hs
        obtain ⟨rfl, rfl⟩ := hs
        exact hissue hclosed (ServiceConf.set_pc_self _ _ _ _)
    | acceptError | accept | connect | receive | write | hold | drop | send | disconnect
    | visit => exact absurd trivial hbad
  · exact fun c t n _ ha hroom hidle => exec_replicate (exec_rearm ha hroom hidle) n

/-- A step with the acceptor open that leaves it open. -/
def leavesOpen (c : ServiceConf) : ServiceLabel → Bool
  | .closeService _ => false
  | _ => c.sh.acceptorOpen

theorem endsAccepting_of_leavesOpen {limit : Int} (c : ServiceConf) (l : ServiceLabel)
    (h : leavesOpen c l = true) : EndsAccepting limit c l := by
  cases l with
  | closeService t => nomatch h
  | run t =>
      intro hclosed
      have hopen : c.sh.acceptorOpen = true := h
      rw [hclosed] at hopen
      nomatch hopen
  | accept | connect | receive | write | hold | drop | send | disconnect | visit => trivial

/-- Room for one session: with a client there the chain has ended, and the close keeps it so.
    Without one the accept outstanding is issued again after the close. -/
theorem accept_close_law_runs :
    (∃ c, Reach (ServiceConf.next 1) (EndsAccepting 1) (.started true) c ∧
      c.sh.acceptorOpen = false ∧ AcceptsOver c) ∧
    ∃ c, exec (ServiceConf.next 1) always (.started true)
        [.run 0, .run 0, .closeService 1] = some c ∧
      exec (ServiceConf.next 1) always c (List.replicate 100 (rearm 2)).flatten = some c := by
  constructor
  · obtain ⟨c, hc⟩ : ∃ c, exec (ServiceConf.next 1) (fun c l => leavesOpen c l = true)
        (.started true) (clientRun ++ [.run 0]) = some c := ⟨_, rfl⟩
    have hclient : Reach (ServiceConf.next 1) (EndsAccepting 1) (.started true) c :=
      .mono endsAccepting_of_leavesOpen (fun _ _ _ h => h) (.of_exec _ hc)
    have hidle : ∀ u, c.pc u = .idle := by
      intro u
      obtain rfl := Option.some.inj hc
      by_cases hu : u = 0
      · subst hu
        rfl
      · simp [ServiceConf.set_pc_of_ne, ServiceConf.started, hu]
    have hnone : EndsAccepting 1 c (.closeService 1) := fun u => by
      rw [hidle u]
      exact ServicePc.noConfusion
    have henabled : c.next 1 (.closeService 1) = some _ := if_pos (hidle 1)
    have hclose := Reach.step c _ (.closeService 1) hclient hnone henabled
    exact ⟨_, hclose, rfl, (accept_close_law 1).1 _ hclose⟩
  · exact ⟨_, rfl, (accept_close_law 1).2.2 _ 2 100 rfl (by decide) (by decide) rfl⟩

/-- The service starts, its first accept is outstanding, and `CloseService` runs from beginning to
    end; then the accept is aborted, and its handler comes to another. -/
theorem accept_after_close :
    ∃ c c', Reach (ServiceConf.next 1) always (.started true) c ∧ c.sh.acceptorOpen = false ∧
      c.pc 1 = .idle ∧ c.sh.accepts = 0 ∧ c.pc 2 = .acceptIssue ∧ ¬ AcceptsOver c ∧
      c.next 1 (.run 2) = some c' ∧ c'.sh.accepts = 1 := by
  refine ⟨_, _, .of_exec ([.run 0, .run 0, .closeService 1] ++ List.replicate 4 (.run 1) ++
    [.accept 2 true, .run 2]) rfl, rfl, rfl, rfl, rfl, fun hover => ?_, rfl, rfl⟩
  exact hover rfl 2 rfl

end ServerCore
