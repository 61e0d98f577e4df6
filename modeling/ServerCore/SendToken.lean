/-
  File:      ServerCore/SendToken.lean
  Subject:   The send token: the one thread or write that `_sendRegistered` stands for.

  The thread whose `exchange` found `_sendRegistered` clear takes the token, carries it through
  `RegisterSend` into the write it issues, and the handler of the write takes it over
  (`Pc.token`). The token is lost where the code gives it up: at the two `store(false)`, at a
  test that finds the session disconnected, and with a write that fails.

  * `localStep_token`: what one action can do with the token.
  * `TokenInv`: on every run, errors and reconnects included, there is at most one token, and
    `_sendRegistered` is set while there is one.
  * `wedge_law`: the converse, `_sendRegistered` set on a connected session means that there is
    a token, holds on the runs whose write errors disconnect the session and whose reconnects do
    not find the flag left behind; the other runs wedge the session.
-/
import ServerCore.SendMachine

namespace ServerCore

open Trans

/-! ## 1. The token -/

/-- The thread at this counter holds the send token. -/
def Pc.token : Pc → Bool
  | .sendRelease registerSend => registerSend
  | .regCheck _ | .regAcquire _ | .regDrain _ | .regRelease _ _ | .regClear _ | .regIssue _ _ =>
      true
  | .procCheck _ | .procDisconnect | .procAcquire | .procTest | .procClear => true
  | .idle | .sendCheck _ | .sendAcquire _ | .sendPush _ | .sendExchange | .procRelease => false

@[simp] theorem Caller.token_return (c : Caller) : c.return.token = false := by
  cases c <;> rfl

/-- **What an action can do with the token**: take it, keep it (or its absence), drop it, or
    hand it to the write it issues. -/
inductive TokenMove (s s' : SendState) (p p' : Pc) : Prop where
  | take (hp : p.token = false) (hp' : p'.token = true) (hr : s.sendRegistered = false)
      (hr' : s'.sendRegistered = true) (hw : s'.writes = s.writes)
      (hc : s'.connected = s.connected)
  | keep (hp : p'.token = p.token) (hr : s'.sendRegistered = s.sendRegistered)
      (hw : s'.writes = s.writes) (hc : s'.connected = s.connected)
  | drop (hp : p.token = true) (hp' : p'.token = false) (hw : s'.writes = s.writes)
      (hdead : s'.connected = false ∨ s'.sendRegistered = false)
  | issue (w : Write) (hp : p.token = true) (hp' : p'.token = false)
      (hr : s'.sendRegistered = s.sendRegistered) (hw : s'.writes = s.writes ++ [w])
      (hc : s'.connected = s.connected)

theorem localStep_token {k : Mutex.Kind} {t : Tid} {s s' : SendState} {p p' : Pc}
    (h : localStep k t s p = some (s', p')) : TokenMove s s' p p' := by
  cases sendAction_of_step h with
  | exchange hr => exact .take rfl rfl hr rfl rfl rfl
  | exchangeTaken hr => exact .keep rfl hr.symm rfl rfl
  | registerDead c hc => exact .drop rfl c.token_return rfl (.inl hc)
  | regClear c => exact .drop rfl c.token_return rfl (.inr rfl)
  | issue c sendBuffers => exact .issue _ rfl c.token_return rfl rfl rfl
  | procDead n hc => exact .drop rfl rfl rfl (.inl hc)
  | procDisconnect => exact .drop rfl rfl rfl (.inl rfl)
  | procClear => exact .drop rfl rfl rfl (.inr rfl)
  | _ => exact .keep rfl rfl rfl rfl

/-! ## 2. There is at most one token -/

/-- **The token invariant**: one token, in a thread or in a write, and the flag set while it is
    there. -/
structure TokenInv (c : SendConf) : Prop where
  unique : ∀ t u, (c.pc t).token = true → (c.pc u).token = true → t = u
  noWrite : ∀ t, (c.pc t).token = true → c.sh.writes = []
  oneWrite : c.sh.writes.length ≤ 1
  registered : ∀ t, (c.pc t).token = true → c.sh.sendRegistered = true
  registered_write : c.sh.writes ≠ [] → c.sh.sendRegistered = true

theorem tokenInv_fresh (connected : Bool) : TokenInv (.fresh connected) where
  unique t u h := by cases h
  noWrite t h := rfl
  oneWrite := Nat.zero_le 1
  registered t h := by cases h
  registered_write h := absurd rfl h

section Set

variable {c : SendConf} {t : Tid} {sh : SendState} {p : Pc}

/-- A thread with the token after `t` moved is `t`, or had it before. -/
theorem token_set_cases {u : Tid} (h : ((c.set t sh p).pc u).token = true) :
    (u = t ∧ p.token = true) ∨ (u ≠ t ∧ (c.pc u).token = true) := by
  by_cases hu : u = t
  · subst hu
    rw [SendConf.set_pc_self] at h
    exact .inl ⟨rfl, h⟩
  · rw [SendConf.set_pc_of_ne c sh p hu] at h
    exact .inr ⟨hu, h⟩

/-- No thread had the token before, where `t` had it not and none has it now. -/
theorem noToken_of_set (ht : (c.pc t).token = false)
    (hnone : ∀ u, ((c.set t sh p).pc u).token = false) (u : Tid) : (c.pc u).token = false := by
  by_cases hu : u = t
  · rw [hu]
    exact ht
  · have hafter := hnone u
    rwa [SendConf.set_pc_of_ne c sh p hu] at hafter

/-- Thread `t` has the token now, and before its move there was none elsewhere. -/
theorem TokenInv.set_token (hu : ∀ u, u ≠ t → (c.pc u).token = false) (hw : sh.writes = [])
    (hr : sh.sendRegistered = true) : TokenInv (c.set t sh p) := by
  have hself : ∀ u, ((c.set t sh p).pc u).token = true → u = t := by
    intro u h
    rcases token_set_cases h with ⟨rfl, -⟩ | ⟨hne, h⟩
    · rfl
    · rw [hu u hne] at h
      cases h
  exact
    { unique := fun u v h h' => (hself u h).trans (hself v h').symm
      noWrite := fun _ _ => hw
      oneWrite := by rw [SendConf.set_sh, hw]; exact Nat.zero_le 1
      registered := fun _ _ => hr
      registered_write := fun h => absurd hw h }

/-- No thread has the token after the move. -/
theorem TokenInv.set_none (hu : ∀ u, u ≠ t → (c.pc u).token = false) (hp : p.token = false)
    (hw : sh.writes.length ≤ 1) (hr : sh.writes ≠ [] → sh.sendRegistered = true) :
    TokenInv (c.set t sh p) := by
  have hnone : ∀ u, ((c.set t sh p).pc u).token ≠ true := by
    intro u h
    rcases token_set_cases h with ⟨-, h⟩ | ⟨hne, h⟩
    · rw [hp] at h
      cases h
    · rw [hu u hne] at h
      cases h
  exact
    { unique := fun u v h => absurd h (hnone u)
      noWrite := fun u h => absurd h (hnone u)
      oneWrite := hw
      registered := fun u h => absurd h (hnone u)
      registered_write := hr }

/-- The move keeps the token where it was. -/
theorem TokenInv.set_keep (hI : TokenInv c) (hp : p.token = (c.pc t).token)
    (hw : sh.writes = c.sh.writes) (hr : sh.sendRegistered = c.sh.sendRegistered) :
    TokenInv (c.set t sh p) := by
  have hback : ∀ u, ((c.set t sh p).pc u).token = true → (c.pc u).token = true := by
    intro u h
    rcases token_set_cases h with ⟨e, htok⟩ | ⟨-, htok⟩
    · rw [e, ← hp]
      exact htok
    · exact htok
  exact
    { unique := fun u v h h' => hI.unique u v (hback u h) (hback v h')
      noWrite := fun u h => hw.trans (hI.noWrite u (hback u h))
      oneWrite := by rw [SendConf.set_sh, hw]; exact hI.oneWrite
      registered := fun u h => hr.trans (hI.registered u (hback u h))
      registered_write := fun h => hr.trans (hI.registered_write (by rw [← hw]; exact h)) }

/-- While `t` has the token, no other thread has it. -/
theorem TokenInv.other_of_token (hI : TokenInv c) (ht : (c.pc t).token = true) (u : Tid)
    (hne : u ≠ t) : (c.pc u).token = false := by
  cases h : (c.pc u).token with
  | false => rfl
  | true => exact absurd (hI.unique u t h ht) hne

/-- While there is a write, no thread has the token. -/
theorem TokenInv.token_of_write (hI : TokenInv c) (hw : c.sh.writes ≠ []) (u : Tid) :
    (c.pc u).token = false := by
  cases h : (c.pc u).token with
  | false => rfl
  | true => exact absurd (hI.noWrite u h) hw

/-- While the flag is clear, no thread has the token and there is no write. -/
theorem TokenInv.none_of_clear (hI : TokenInv c) (hr : c.sh.sendRegistered = false) :
    (∀ u, (c.pc u).token = false) ∧ c.sh.writes = [] := by
  constructor
  · intro u
    cases h : (c.pc u).token with
    | false => rfl
    | true =>
        have := hI.registered u h
        rw [hr] at this
        cases this
  · by_cases hw : c.sh.writes = []
    · exact hw
    · have := hI.registered_write hw
      rw [hr] at this
      cases this

end Set

/-- A list of at most one element, without that element. -/
theorem eraseIdx_eq_nil {ws : List Write} {i : Nat} {w : Write} (h : ws.length ≤ 1)
    (hw : ws[i]? = some w) : ws.eraseIdx i = [] := by
  obtain ⟨hi, -⟩ := List.getElem?_eq_some_iff.mp hw
  have := List.length_eraseIdx_of_lt hi
  exact List.length_eq_zero_iff.mp (by omega)

/-- A list of at most one element, with that element replaced. -/
theorem set_eq_singleton {ws : List Write} {i : Nat} {w w' : Write} (h : ws.length ≤ 1)
    (hw : ws[i]? = some w) : ws.set i w' = [w'] := by
  obtain ⟨hi, -⟩ := List.getElem?_eq_some_iff.mp hw
  match ws, i, h, hi with
  | [_], 0, _, _ => rfl

theorem ne_nil_of_getElem? {ws : List Write} {i : Nat} {w : Write} (hw : ws[i]? = some w) :
    ws ≠ [] := by
  rintro rfl
  cases hw

/-- **Every step keeps the token invariant**, errors and reconnects included. -/
theorem TokenInv.step {k : Mutex.Kind} {c c' : SendConf} {l : Label} (hI : TokenInv c)
    (h : c.next k l = some c') : TokenInv c' := by
  cases stepped_of_next h with
  | call t b hidle => exact hI.set_keep (by rw [hidle]; rfl) rfl rfl
  | run t sh p hs =>
      cases localStep_token hs with
      | take hp hp' hr hr' hw hc =>
          obtain ⟨hnone, hnil⟩ := hI.none_of_clear hr
          exact TokenInv.set_token (fun u _ => hnone u) (hw.trans hnil) hr'
      | keep hp hr hw hc => exact hI.set_keep hp hw hr
      | drop hp hp' hw hdead =>
          have hnil := hw.trans (hI.noWrite t hp)
          exact TokenInv.set_none (hI.other_of_token hp) hp' (by rw [hnil]; exact Nat.zero_le 1)
            fun h => absurd hnil h
      | issue w hp hp' hr hw hc =>
          rw [hI.noWrite t hp, List.nil_append] at hw
          exact TokenInv.set_none (hI.other_of_token hp) hp' (by rw [hw]; exact Nat.le_refl 1)
            fun _ => hr.trans (hI.registered t hp)
  | transmit i n buffers hw hn =>
      have hne := ne_nil_of_getElem? hw
      exact
        { unique := hI.unique
          noWrite := fun t h => absurd (hI.noWrite t h) hne
          oneWrite := by rw [List.length_set]; exact hI.oneWrite
          registered := hI.registered
          registered_write := fun _ => hI.registered_write hne }
  | complete t i n buffers hw hidle =>
      have hne := ne_nil_of_getElem? hw
      exact TokenInv.set_token (fun u _ => hI.token_of_write hne u)
        (eraseIdx_eq_nil hI.oneWrite hw) (hI.registered_write hne)
  | fail i error buffers hw =>
      have hne := ne_nil_of_getElem? hw
      have hnil : (SendState.handleError { c.sh with writes := c.sh.writes.eraseIdx i }
          error).writes = [] := by
        rw [SendState.handleError_eq]
        exact eraseIdx_eq_nil hI.oneWrite hw
      have hnone := hI.token_of_write hne
      exact
        { unique := hI.unique
          noWrite := fun _ _ => hnil
          oneWrite := by rw [hnil]; exact Nat.zero_le 1
          registered := fun t h => by
            rw [hnone t] at h
            cases h
          registered_write := fun h => absurd hnil h }
  | disconnect => exact ⟨hI.unique, hI.noWrite, hI.oneWrite, hI.registered, hI.registered_write⟩
  | connect => exact ⟨hI.unique, hI.noWrite, hI.oneWrite, hI.registered, hI.registered_write⟩

/-- **The token invariant holds on every run.** -/
theorem TokenInv.of_reach {k : Mutex.Kind} {ok : SendConf → Label → Prop} {connected : Bool}
    {c : SendConf} (hr : Reach (SendConf.next k) ok (.fresh connected) c) : TokenInv c :=
  hr.invariant (tokenInv_fresh connected) fun _ _ _ hI _ h => hI.step h

/-! ## 3. Write errors and the flag -/

/-- The session is wedged: connected, the flag set, no write outstanding, and no thread inside
    `Send`, `RegisterSend` or `ProcessSend`. -/
def Wedged (c : SendConf) : Prop :=
  c.sh.connected = true ∧ c.sh.sendRegistered = true ∧ c.sh.writes = [] ∧ ∀ t, c.pc t = .idle

/-- There is a token: in a thread, or in a write. -/
def HasToken (c : SendConf) : Prop := (∃ t, (c.pc t).token = true) ∨ c.sh.writes ≠ []

/-- A write fails on a connected session only with an error that disconnects it, and the session
    is connected only while the flag is clear or there is a token. -/
def ErrorsDisconnect (c : SendConf) : Label → Prop
  | .fail _ error => c.sh.connected = true → error.disconnects = true
  | .connect => c.sh.sendRegistered = true → HasToken c
  | _ => True

/-- A connected session with the flag set has a token. -/
def FlagInv (c : SendConf) : Prop :=
  c.sh.connected = true → c.sh.sendRegistered = true → HasToken c

/-- A token in a thread that does not move stays. -/
theorem HasToken.set_of_thread {c : SendConf} {t u : Tid} {sh : SendState} {p : Pc} (hne : u ≠ t)
    (h : (c.pc u).token = true) : HasToken (c.set t sh p) :=
  .inl ⟨u, by rw [SendConf.set_pc_of_ne c sh p hne]; exact h⟩

/-- A move that keeps the thread's share of the token and the writes keeps the token. -/
theorem HasToken.set_keep {c : SendConf} (h : HasToken c) {t : Tid} {sh : SendState} {p : Pc}
    (hp : p.token = (c.pc t).token) (hw : sh.writes = c.sh.writes) :
    HasToken (c.set t sh p) := by
  rcases h with ⟨u, hu⟩ | hne
  · by_cases hut : u = t
    · subst hut
      exact .inl ⟨u, by rw [SendConf.set_pc_self, hp]; exact hu⟩
    · exact .set_of_thread hut hu
  · exact .inr (by rw [SendConf.set_sh, hw]; exact hne)

theorem FlagInv.step {k : Mutex.Kind} {c c' : SendConf} {l : Label} (hI : FlagInv c)
    (hok : ErrorsDisconnect c l) (h : c.next k l = some c') : FlagInv c' := by
  cases stepped_of_next h with
  | call t b hidle =>
      intro hc hr
      exact (hI hc hr).set_keep (by rw [hidle]; rfl) rfl
  | run t sh p hs =>
      intro hc hr
      cases localStep_token hs with
      | take hp hp' hr₀ hr' hw hc₀ =>
          exact .inl ⟨t, by rw [SendConf.set_pc_self]; exact hp'⟩
      | keep hp hr₀ hw hc₀ =>
          exact (hI (hc₀.symm.trans hc) (hr₀.symm.trans hr)).set_keep hp hw
      | drop hp hp' hw hdead =>
          rcases hdead with hdead | hdead
          · exact absurd (hdead.symm.trans hc) Bool.false_ne_true
          · exact absurd (hdead.symm.trans hr) Bool.false_ne_true
      | issue w hp hp' hr₀ hw hc₀ =>
          exact .inr (by rw [SendConf.set_sh, hw]; simp)
  | transmit i n buffers hw hn =>
      intro _ _
      exact .inr fun e => ne_nil_of_getElem? hw ((List.set_eq_nil_iff _ _).mp e)
  | complete t i n buffers hw hidle =>
      intro _ _
      exact .inl ⟨t, by rw [SendConf.set_pc_self]; rfl⟩
  | fail i error buffers hw =>
      intro hc _
      simp only [SendState.handleError_eq, Bool.and_eq_true, Bool.not_eq_true'] at hc
      exact absurd (hc.2.symm.trans (hok hc.1)) Bool.false_ne_true
  | disconnect =>
      intro hc
      cases hc
  | connect => exact fun _ hr => hok hr

/-- The flag of a connected session is left behind: set, with no token. -/
structure Stranded (c : SendConf) : Prop where
  connected : c.sh.connected = true
  registered : c.sh.sendRegistered = true
  noToken : ¬ HasToken c

theorem Stranded.token {c : SendConf} (hS : Stranded c) (t : Tid) : (c.pc t).token = false := by
  cases h : (c.pc t).token with
  | false => rfl
  | true => exact absurd (.inl ⟨t, h⟩) hS.noToken

theorem Stranded.writes {c : SendConf} (hS : Stranded c) : c.sh.writes = [] := by
  by_cases hw : c.sh.writes = []
  · exact hw
  · exact absurd (.inr hw) hS.noToken

/-- A stranded session is wedged once the threads inside it have returned. -/
theorem Stranded.wedged {c : SendConf} (hS : Stranded c) (hidle : ∀ t, c.pc t = .idle) :
    Wedged c :=
  ⟨hS.connected, hS.registered, hS.writes, hidle⟩

/-- Only the thread with the token takes buffers out of the queue. -/
theorem localStep_queue {k : Mutex.Kind} {t : Tid} {s s' : SendState} {p p' : Pc}
    (h : localStep k t s p = some (s', p')) (hp : p.token = false) :
    s.sendQueue <+: s'.sendQueue := by
  cases (localStep_data h).1 with
  | push b _ _ hq => exact hq ▸ List.prefix_append _ _
  | drain c hd =>
      rw [hd] at hp
      cases hp
  | issue c _ _ hq => exact hq ▸ List.prefix_rfl
  | leave _ hq => exact hq ▸ List.prefix_rfl

/-- The steps of a session with no write outstanding. -/
inductive SteppedNoWrite (k : Mutex.Kind) (c : SendConf) : Label → SendConf → Prop where
  | call (t : Tid) (b : SendBytes) (hidle : c.pc t = .idle) :
      SteppedNoWrite k c (.call t b) (c.set t c.sh (.sendCheck b))
  | run (t : Tid) (sh : SendState) (p : Pc) (h : localStep k t c.sh (c.pc t) = some (sh, p)) :
      SteppedNoWrite k c (.run t) (c.set t sh p)
  | disconnect : SteppedNoWrite k c .disconnect { c with sh := { c.sh with connected := false } }
  | connect : SteppedNoWrite k c .connect { c with sh := { c.sh with connected := true } }

theorem steppedNoWrite_of_next {k : Mutex.Kind} {c c' : SendConf} {l : Label}
    (hwrites : c.sh.writes = []) (h : c.next k l = some c') : SteppedNoWrite k c l c' := by
  cases stepped_of_next h with
  | call t b hidle => exact .call t b hidle
  | run t sh p hs => exact .run t sh p hs
  | transmit i n buffers hw hn => exact absurd hwrites (ne_nil_of_getElem? hw)
  | complete t i n buffers hw hidle => exact absurd hwrites (ne_nil_of_getElem? hw)
  | fail i error buffers hw => exact absurd hwrites (ne_nil_of_getElem? hw)
  | disconnect => exact .disconnect
  | connect => exact .connect

/-- **A stranded session stays stranded** and sends nothing, until other code disconnects it. -/
theorem Stranded.step {k : Mutex.Kind} {c c' : SendConf} {l : Label} (hS : Stranded c)
    (hl : l ≠ .disconnect) (h : c.next k l = some c') :
    Stranded c' ∧ c.sh.sendQueue <+: c'.sh.sendQueue := by
  have hkeep : ∀ {t sh p}, p.token = false → sh.connected = c.sh.connected →
      sh.sendRegistered = c.sh.sendRegistered → sh.writes = c.sh.writes →
      Stranded (c.set t sh p) := by
    intro t sh p hp hc hr hw
    refine ⟨hc.trans hS.connected, hr.trans hS.registered, fun hT => ?_⟩
    rcases hT with ⟨u, hu⟩ | hne
    · rcases token_set_cases hu with ⟨-, hu⟩ | ⟨-, hu⟩
      · rw [hp] at hu
        cases hu
      · rw [hS.token u] at hu
        cases hu
    · exact hne (hw.trans hS.writes)
  cases steppedNoWrite_of_next hS.writes h with
  | call t b hidle => exact ⟨hkeep rfl rfl rfl rfl, List.prefix_rfl⟩
  | run t sh p hs =>
      refine ⟨?_, localStep_queue hs (hS.token t)⟩
      cases localStep_token hs with
      | take hp hp' hr hr' hw hc => exact absurd (hr.symm.trans hS.registered) Bool.false_ne_true
      | keep hp hr hw hc => exact hkeep (hp.trans (hS.token t)) hc hr hw
      | drop hp hp' hw hdead => exact absurd ((hS.token t).symm.trans hp) Bool.false_ne_true
      | issue w hp hp' hr hw hc => exact absurd ((hS.token t).symm.trans hp) Bool.false_ne_true
  | disconnect => exact absurd rfl hl
  | connect => exact ⟨⟨rfl, hS.registered, hS.noToken⟩, List.prefix_rfl⟩

/-- A step that breaks the condition strands the session. -/
theorem stranded_of_not_errorsDisconnect {k : Mutex.Kind} {c c' : SendConf} {l : Label}
    (hI : TokenInv c) (hbad : ¬ ErrorsDisconnect c l) (h : c.next k l = some c') :
    Stranded c' := by
  cases stepped_of_next h with
  | fail i error buffers hw =>
      have hne := ne_nil_of_getElem? hw
      simp only [ErrorsDisconnect, Classical.not_imp] at hbad
      simp only [SendState.handleError, if_neg hbad.2]
      refine ⟨hbad.1, hI.registered_write hne, fun hT => ?_⟩
      rcases hT with ⟨u, hu⟩ | hT
      · exact hne (hI.noWrite u hu)
      · exact hT (eraseIdx_eq_nil hI.oneWrite hw)
  | connect =>
      simp only [ErrorsDisconnect, Classical.not_imp] at hbad
      exact ⟨rfl, hbad.1, hbad.2⟩
  | _ => exact absurd trivial hbad

/-- **When a write error wedges the session.** On the runs whose failed writes disconnect the
    session, and which connect it only while the flag is clear or there is a token, the session
    is never wedged. Any other step strands it: until other code disconnects it, no write is
    issued, what is queued stays queued, and it is wedged once no thread is inside it. -/
theorem wedge_law (k : Mutex.Kind) (connected : Bool) :
    (∀ c, Reach (SendConf.next k) ErrorsDisconnect (.fresh connected) c → ¬ Wedged c) ∧
    (∀ c c' l, Reach (SendConf.next k) always (.fresh connected) c → ¬ ErrorsDisconnect c l →
      c.next k l = some c' →
      ∀ c'', Reach (SendConf.next k) (fun _ l => l ≠ .disconnect) c' c'' →
        c''.sh.writes = [] ∧ c'.sh.sendQueue <+: c''.sh.sendQueue ∧
        (Wedged c'' ↔ ∀ t, c''.pc t = .idle)) := by
  constructor
  · intro c hr ⟨hc, hreg, hw, hidle⟩
    have hF : FlagInv c := hr.invariant (fun _ h => by cases h) fun _ _ _ hI hok h => hI.step hok h
    rcases hF hc hreg with ⟨t, ht⟩ | hne
    · rw [hidle t] at ht
      cases ht
    · exact hne hw
  · intro c c' l hr hbad h c'' hr'
    have hS := stranded_of_not_errorsDisconnect (.of_reach hr) hbad h
    have hrun : Stranded c'' ∧ c'.sh.sendQueue <+: c''.sh.sendQueue := by
      refine hr'.invariant (I := fun d => Stranded d ∧ c'.sh.sendQueue <+: d.sh.sendQueue)
        ⟨hS, List.prefix_rfl⟩ fun d d' l hI hl hd => ?_
      obtain ⟨hS', hq⟩ := hI.1.step hl hd
      exact ⟨hS', hI.2.trans hq⟩
    exact ⟨hrun.1.writes, hrun.2, fun hW => hW.2.2.2, hrun.1.wedged⟩

/-- The law on a run whose write fails with `connectionReset`, and on one whose write fails with
    `timedOut`. -/
theorem wedge_law_runs :
    (∃ c, Reach (SendConf.next .plain) ErrorsDisconnect (.fresh true) c ∧ c.sh.writes = [] ∧
      c.sh.connected = false ∧ ¬ Wedged c) ∧
    ∃ c c', Reach (SendConf.next .plain) always (.fresh true) c ∧
      ¬ ErrorsDisconnect c (.fail 0 .timedOut) ∧ c.next .plain (.fail 0 .timedOut) = some c' ∧
      c'.sh.connected = true ∧ Wedged c' := by
  constructor
  · have hrun : Reach (SendConf.next .plain) ErrorFree (.fresh true) _ :=
      .of_exec (sendRun 0 [1] 10) rfl
    have hok : ∀ c l, ErrorFree c l → ErrorsDisconnect c l := by
      intro c l h
      cases l <;> first | exact h.elim | exact trivial
    have hfailed : Reach (SendConf.next .plain) ErrorsDisconnect (.fresh true) _ :=
      .step _ _ (.fail 0 .connectionReset) (hrun.mono hok fun _ _ _ h => h) (fun _ => rfl) rfl
    exact ⟨_, hfailed, rfl, rfl, (wedge_law .plain true).1 _ hfailed⟩
  · have hrun : Reach (SendConf.next .plain) always (.fresh true) _ :=
      .of_exec (sendRun 0 [1] 10) rfl
    refine ⟨_, _, hrun, ?_, rfl, rfl,
      (((wedge_law .plain true).2 _ _ (.fail 0 .timedOut) hrun ?_ rfl _ .start).2.2).mpr ?_⟩
    · exact fun h => absurd (h rfl) (by decide)
    · exact fun h => absurd (h rfl) (by decide)
    · intro t
      by_cases ht : t = 0
      · subst ht
        rfl
      · simp [SendConf.set_pc_of_ne, SendConf.fresh, ht]

/-- One `Send` whose write fails with `timedOut` leaves the session wedged. -/
theorem wedged_of_timedOut :
    ∃ c, Reach (SendConf.next .plain) always (.fresh true) c ∧ Wedged c := by
  refine ⟨_, .of_exec (sendRun 0 [1] 10 ++ [.fail 0 .timedOut]) rfl, rfl, rfl, rfl, fun t => ?_⟩
  by_cases ht : t = 0
  · subst ht
    rfl
  · simp [SendConf.set_pc_of_ne, SendConf.fresh, ht]

end ServerCore
