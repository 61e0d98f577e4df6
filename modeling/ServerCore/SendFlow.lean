/-
  File:      ServerCore/SendFlow.lean
  Subject:   Single-flight sending without lost wake-ups, on the runs without errors.

  `FlowInv` joins the lock invariant and the token invariant with what each counter knows about
  the queue (`Pc.Knows`): a thread on its way to the drain knows that the queue is not empty, a
  thread about to clear the flag under the lock knows that it is empty, and no thread is ever at
  the `store(false)` of `RegisterSend`.

  * `FlowInv.step`: every error-free step keeps it, for both kinds of mutex.
  * `drained_of_run`: a thread on its way to the drain takes the whole queue within at most six
    actions of its own, whatever the other threads do meanwhile.
  * `send_single_flight`: at most one write is outstanding or being issued, and buffers in the
    queue are never forgotten.
-/
import ServerCore.SendLock
import ServerCore.SendToken

namespace ServerCore

open Trans

/-! ## 1. The invariant -/

/-- What a thread at this counter knows about the queue `q`. -/
def Pc.Knows (q : List SendBytes) : Pc → Prop
  | .sendExchange => q ≠ []
  | .sendRelease registerSend => registerSend = true → q ≠ []
  | .regCheck _ | .regAcquire _ | .regDrain _ => q ≠ []
  | .regRelease c sendBuffers | .regIssue c sendBuffers =>
      sendBuffers ≠ [] ∧ (c = .processSend → q = [])
  | .regClear _ | .procDisconnect => False
  | .procCheck bytesTransferred => bytesTransferred ≠ 0
  | .procClear => q = []
  | .idle | .sendCheck _ | .sendAcquire _ | .sendPush _ | .procAcquire | .procTest
  | .procRelease => True

/-- **The flow invariant** of a connected session without errors. -/
structure FlowInv (c : SendConf) : Prop where
  lock : LockInv c
  token : TokenInv c
  flag : FlagInv c
  connected : c.sh.connected = true
  knows : ∀ t, (c.pc t).Knows c.sh.sendQueue
  transferred : ∀ w ∈ c.sh.writes, w.transferred ≠ some 0
  wake : c.sh.sendQueue ≠ [] → c.sh.sendRegistered = true ∨ ∃ t, c.pc t = .sendExchange

theorem flowInv_fresh : FlowInv (.fresh true) where
  lock := lockInv_fresh true
  token := tokenInv_fresh true
  flag _ h := by cases h
  connected := rfl
  knows _ := trivial
  transferred w h := by cases h
  wake h := absurd rfl h

theorem errorsDisconnect_of_errorFree {c : SendConf} {l : Label} (h : ErrorFree c l) :
    ErrorsDisconnect c l := by
  cases l with
  | fail => exact h.elim
  | connect => exact h.elim
  | _ => trivial

/-- **A thread's own action gives it the knowledge of its next counter.** -/
theorem knows_localStep {k : Mutex.Kind} {t : Tid} {s s' : SendState} {p p' : Pc}
    (h : localStep k t s p = some (s', p')) (hc : s.connected = true)
    (hk : p.Knows s.sendQueue) : p'.Knows s'.sendQueue := by
  cases sendAction_of_step h with
  | push b => exact List.append_ne_nil_of_right_ne_nil _ (List.cons_ne_nil b [])
  | exchange | exchangeTaken => exact fun _ => hk
  | sendRegister => exact hk rfl
  | register | regAcquire | regSome => exact hk
  | registerDead c hdead => cases hdead.symm.trans hc
  | drain c => exact ⟨hk, fun _ => rfl⟩
  | regEmpty c => exact absurd rfl hk.1
  | regClear | procDisconnect => exact hk.elim
  | issue c => cases c <;> exact trivial
  | procZero => exact absurd rfl hk
  | procEmpty hq => exact hq
  | procRegister hq => exact hq
  | _ => exact trivial

/-- A push under the lock leaves what the threads outside the lock know. -/
theorem Pc.Knows.push {p : Pc} {q : List SendBytes} (b : SendBytes) (hk : p.Knows q)
    (hheld : p.held = 0) : p.Knows (q ++ [b]) := by
  have hne : q ++ [b] ≠ [] := List.append_ne_nil_of_right_ne_nil _ (List.cons_ne_nil b [])
  cases p with
  | regRelease c sendBuffers => cases hheld
  | regIssue c sendBuffers =>
      refine ⟨hk.1, fun e => ?_⟩
      subst e
      cases hheld
  | procClear => cases hheld
  | sendExchange => exact hne
  | sendRelease registerSend => exact fun _ => hne
  | regCheck c => exact hne
  | regAcquire c => exact hne
  | regDrain c => exact hne
  | _ => exact hk

/-- A drain under the lock leaves what the threads outside the lock without the token know. -/
theorem Pc.Knows.drain {p : Pc} {q : List SendBytes} (hk : p.Knows q) (hheld : p.held = 0)
    (htok : p.token = false) : p.Knows [] := by
  cases p with
  | sendExchange => cases hheld
  | sendRelease registerSend => cases hheld
  | regCheck c => cases htok
  | regAcquire c => cases htok
  | regDrain c => cases htok
  | regRelease c sendBuffers => cases htok
  | regIssue c sendBuffers => cases htok
  | procClear => rfl
  | _ => exact hk

/-- What an error-free action does to `_connected` and `_sendRegistered`. -/
theorem localStep_flags {k : Mutex.Kind} {t : Tid} {s s' : SendState} {p p' : Pc}
    (h : localStep k t s p = some (s', p')) (hk : p.Knows s.sendQueue) :
    s'.connected = s.connected ∧
      (s'.sendRegistered = s.sendRegistered ∧ p ≠ .sendExchange ∨ s'.sendRegistered = true ∨
        s'.sendQueue = []) := by
  cases sendAction_of_step h with
  | exchange | exchangeTaken => exact ⟨rfl, .inr (.inl rfl)⟩
  | regClear | procDisconnect => exact hk.elim
  | procClear => exact ⟨rfl, .inr (.inr hk)⟩
  | _ => exact ⟨rfl, .inl ⟨rfl, Pc.noConfusion⟩⟩

/-- The knowledge of every thread after an action of one of them. -/
theorem FlowInv.knows_run {k : Mutex.Kind} {c : SendConf} {t : Tid} {sh : SendState} {p : Pc}
    (hI : FlowInv c) (h : localStep k t c.sh (c.pc t) = some (sh, p)) (u : Tid) :
    ((c.set t sh p).pc u).Knows sh.sendQueue := by
  by_cases hu : u = t
  · subst hu
    rw [SendConf.set_pc_self]
    exact knows_localStep h hI.connected (hI.knows u)
  · rw [SendConf.set_pc_of_ne c sh p hu]
    have hout : 0 < (c.pc t).held → (c.pc u).held = 0 := by
      intro ht
      have hn : ¬ 0 < (c.pc u).held := fun h' => hu (hI.lock.unique h' ht)
      omega
    cases (localStep_data h).1 with
    | push b hp _ hq =>
        rw [hq]
        exact (hI.knows u).push b (hout (by rw [hp]; exact Nat.one_pos))
    | drain r hp _ hq =>
        rw [hq]
        refine (hI.knows u).drain (hout (by rw [hp]; exact Nat.succ_pos _)) ?_
        exact hI.token.other_of_token (by rw [hp]; rfl) u hu
    | issue r _ _ hq =>
        rw [hq]
        exact hI.knows u
    | leave _ hq =>
        rw [hq]
        exact hI.knows u

/-- Who may wake the queue still may after a thread other than it moved. -/
theorem FlowInv.wake_set {c : SendConf} (hI : FlowInv c) (hq : c.sh.sendQueue ≠ []) {t : Tid}
    {sh : SendState} {p : Pc} (hr : sh.sendRegistered = c.sh.sendRegistered)
    (hne : c.pc t ≠ .sendExchange) :
    sh.sendRegistered = true ∨ ∃ u, (c.set t sh p).pc u = .sendExchange := by
  rcases hI.wake hq with hreg | ⟨u, hu⟩
  · exact .inl (hr.trans hreg)
  · refine .inr ⟨u, ?_⟩
    rw [SendConf.set_pc_of_ne _ _ _ (by rintro rfl; exact hne hu)]
    exact hu

/-- **Every error-free step keeps the flow invariant**, for both kinds of mutex. -/
theorem FlowInv.step {k : Mutex.Kind} {c c' : SendConf} {l : Label} (hI : FlowInv c)
    (hok : ErrorFree c l) (h : c.next k l = some c') : FlowInv c' := by
  have hlock := hI.lock.step h
  have htoken := hI.token.step h
  have hflag := hI.flag.step (errorsDisconnect_of_errorFree hok) h
  cases stepped_of_next h with
  | call t b hidle =>
      refine ⟨hlock, htoken, hflag, hI.connected,
        SendConf.forall_pc_set hI.knows trivial, hI.transferred, fun hq => ?_⟩
      exact hI.wake_set hq rfl (by rw [hidle]; exact Pc.noConfusion)
  | run t sh p hs =>
      obtain ⟨hconn, hreg⟩ := localStep_flags hs (hI.knows t)
      refine ⟨hlock, htoken, hflag, hconn.trans hI.connected, hI.knows_run hs, ?_, fun hq => ?_⟩
      · intro w hw
        rw [SendConf.set_sh] at hw
        cases (localStep_data hs).1 with
        | issue r _ _ _ _ hw' =>
            rw [hw'] at hw
            rcases List.mem_append.mp hw with hw | hw
            · exact hI.transferred w hw
            · rw [List.mem_singleton.mp hw]
              exact fun e => by cases e
        | push b _ _ _ _ hw' => exact hI.transferred w (hw' ▸ hw)
        | drain r _ _ _ _ hw' => exact hI.transferred w (hw' ▸ hw)
        | leave _ _ _ hw' => exact hI.transferred w (hw' ▸ hw)
      · rw [SendConf.set_sh] at hq ⊢
        rcases hreg with ⟨hr, hne⟩ | hr | hnil
        · -- the flag stays, and so does a thread between its push and its exchange
          cases (localStep_data hs).1 with
          | push b _ hp' =>
              subst hp'
              exact .inr ⟨t, SendConf.set_pc_self c t sh _⟩
          | drain r _ _ hq' => exact absurd hq' hq
          | issue r _ _ hq' => exact hI.wake_set (hq' ▸ hq) hr hne
          | leave _ hq' => exact hI.wake_set (hq' ▸ hq) hr hne
        · exact .inl hr
        · exact absurd hnil hq
  | transmit i n buffers hw hn =>
      refine ⟨hlock, htoken, hflag, hI.connected, hI.knows, fun w hmem => ?_, hI.wake⟩
      rcases List.mem_or_eq_of_mem_set hmem with hmem | rfl
      · exact hI.transferred w hmem
      · exact fun e => absurd (Option.some.inj e) (Nat.pos_iff_ne_zero.mp hok)
  | complete t i n buffers hw hidle =>
      have hn : n ≠ 0 := by
        rintro rfl
        exact hI.transferred _ (List.mem_of_getElem? hw) rfl
      refine ⟨hlock, htoken, hflag, hI.connected, SendConf.forall_pc_set hI.knows hn,
        fun w hmem => hI.transferred w (List.mem_of_mem_eraseIdx hmem), fun hq => ?_⟩
      exact hI.wake_set hq rfl (by rw [hidle]; exact Pc.noConfusion)
  | fail => exact hok.elim
  | disconnect => exact hok.elim
  | connect => exact hok.elim

/-- **The flow invariant holds on every run without errors.** -/
theorem FlowInv.of_reach {k : Mutex.Kind} {c : SendConf}
    (hr : Reach (SendConf.next k) ErrorFree (.fresh true) c) : FlowInv c :=
  hr.invariant flowInv_fresh fun _ _ _ hI hok h => hI.step hok h

/-! ## 2. The way to the drain -/

/-- How many actions of its own a thread at this counter takes until it drains the queue; `none`:
    it is not on the way there. -/
def Pc.toDrain : Pc → Option Nat
  | .procCheck _ => some 6
  | .procAcquire => some 5
  | .procTest => some 4
  | .sendRelease registerSend => if registerSend then some 4 else none
  | .regCheck _ => some 3
  | .regAcquire _ => some 2
  | .regDrain _ => some 1
  | _ => none

theorem Pc.token_of_toDrain {p : Pc} {n : Nat} (h : p.toDrain = some n) : p.token = true := by
  cases p with
  | sendRelease registerSend =>
      cases registerSend with
      | false => cases h
      | true => rfl
  | procCheck => rfl
  | procAcquire => rfl
  | procTest => rfl
  | regCheck => rfl
  | regAcquire => rfl
  | regDrain => rfl
  | _ => cases h

theorem Pc.toDrain_pos {p : Pc} {n : Nat} (h : p.toDrain = some n) : 0 < n ∧ n ≤ 6 := by
  cases p with
  | sendRelease registerSend =>
      cases registerSend with
      | false => cases h
      | true =>
          cases h
          decide
  | procCheck =>
      cases h
      decide
  | procAcquire =>
      cases h
      decide
  | procTest =>
      cases h
      decide
  | regCheck =>
      cases h
      decide
  | regAcquire =>
      cases h
      decide
  | regDrain =>
      cases h
      decide
  | _ => cases h

/-- **A thread's own action brings it one nearer to the drain**, or is the drain. -/
theorem toDrain_localStep {k : Mutex.Kind} {t : Tid} {s s' : SendState} {p p' : Pc} {n : Nat}
    (h : localStep k t s p = some (s', p')) (hc : s.connected = true) (hq : s.sendQueue ≠ [])
    (hk : p.Knows s.sendQueue) (hd : p.toDrain = some n) :
    (∃ r, p = .regDrain r) ∨
      (∃ m, p'.toDrain = some m ∧ m + 1 = n) ∧ s'.sendQueue = s.sendQueue := by
  cases sendAction_of_step h with
  | drain r => exact .inl ⟨r, rfl⟩
  | sendRegister | register | regAcquire | proc | procAcquire | procRegister =>
      cases hd
      exact .inr ⟨⟨_, rfl, rfl⟩, rfl⟩
  | registerDead r hdead => cases hdead.symm.trans hc
  | procZero => exact absurd rfl hk
  | procDead n hdead => cases hdead.symm.trans hc
  | procEmpty hnil => exact absurd hnil hq
  | _ => cases hd

/-- **Nobody else takes the queue** from a thread on its way to the drain, or moves it. -/
theorem toDrain_other {k : Mutex.Kind} {c c' : SendConf} {l : Label} {t : Tid} {n : Nat}
    (hI : FlowInv c) (hd : (c.pc t).toDrain = some n) (hl : l ≠ .run t) (hok : ErrorFree c l)
    (h : c.next k l = some c') :
    c'.pc t = c.pc t ∧ c.sh.sendQueue <+: c'.sh.sendQueue := by
  have hidle : ∀ u, c.pc u = .idle → t ≠ u := by
    rintro u hu rfl
    rw [hu] at hd
    cases hd
  cases stepped_of_next h with
  | call u b hu => exact ⟨SendConf.set_pc_of_ne _ _ _ (hidle u hu), List.prefix_rfl⟩
  | run u sh p hs =>
      have hne : u ≠ t := by
        rintro rfl
        exact hl rfl
      have htok := hI.token.other_of_token (Pc.token_of_toDrain hd) u hne
      exact ⟨SendConf.set_pc_of_ne _ _ _ hne.symm, localStep_queue hs htok⟩
  | transmit => exact ⟨rfl, List.prefix_rfl⟩
  | complete u i n buffers hw hu =>
      exact ⟨SendConf.set_pc_of_ne _ _ _ (hidle u hu), List.prefix_rfl⟩
  | fail => exact hok.elim
  | disconnect => exact hok.elim
  | connect => exact hok.elim

/-- In the run `ls` from `c`, thread `t` comes to the drain with all the buffers queued in `c`
    still in the queue, and drains it. -/
def DrainedIn (k : Mutex.Kind) (c : SendConf) (t : Tid) (ls : List Label) : Prop :=
  ∃ ls₁ ls₂ c₁ r, ls = ls₁ ++ .run t :: ls₂ ∧
    exec (SendConf.next k) ErrorFree c ls₁ = some c₁ ∧ c₁.pc t = .regDrain r ∧
    c.sh.sendQueue <+: c₁.sh.sendQueue

/-- **A thread on its way to the drain drains the queue**: in every run in which it takes as many
    actions as its counter is away from the drain. -/
theorem drained_of_run {k : Mutex.Kind} {t : Tid} :
    ∀ (ls : List Label) {c c' : SendConf} {n : Nat}, FlowInv c → (c.pc t).toDrain = some n →
      c.sh.sendQueue ≠ [] → exec (SendConf.next k) ErrorFree c ls = some c' →
      n ≤ ls.count (.run t) → DrainedIn k c t ls := by
  intro ls
  induction ls with
  | nil =>
      intro c c' n _ hd _ _ hn
      have := Pc.toDrain_pos hd
      rw [List.count_nil] at hn
      omega
  | cons l ls ih =>
      intro c c' n hI hd hq hex hn
      obtain ⟨hok, c₁, h₁, hex₁⟩ := exec_cons_eq_some hex
      -- the rest of the run drains, after a step that neither drains nor takes buffers away
      have hrest : ∀ m, (c₁.pc t).toDrain = some m → m ≤ ls.count (.run t) →
          c.sh.sendQueue <+: c₁.sh.sendQueue → DrainedIn k c t (l :: ls) := by
        intro m hm hle hpre
        have hq₁ : c₁.sh.sendQueue ≠ [] := by
          intro e
          rw [e] at hpre
          exact hq (List.prefix_nil.mp hpre)
        obtain ⟨ls₁, ls₂, c₂, r, rfl, h₂, hr, hpre₂⟩ := ih (hI.step hok h₁) hm hq₁ hex₁ hle
        exact ⟨l :: ls₁, ls₂, c₂, r, rfl, (exec_cons hok h₁ ls₁).trans h₂, hr,
          hpre.trans hpre₂⟩
      by_cases hl : l = .run t
      · subst hl
        obtain ⟨⟨sh, p⟩, hs, rfl⟩ := Option.map_eq_some_iff.mp h₁
        rcases toDrain_localStep hs hI.connected hq (hI.knows t) hd with
          ⟨r, hr⟩ | ⟨⟨m, hm, hmn⟩, hsame⟩
        · exact ⟨[], ls, c, r, rfl, rfl, hr, List.prefix_rfl⟩
        · rw [List.count_cons_self] at hn
          refine hrest m (by rw [SendConf.set_pc_self]; exact hm) (by omega) ?_
          exact hsame ▸ List.prefix_rfl
      · obtain ⟨hpc, hpre⟩ := toDrain_other hI hd hl hok h₁
        rw [List.count_cons_of_ne hl] at hn
        exact hrest n (by rw [hpc]; exact hd) hn hpre

/-- Thread `t` will drain the queue: every run in which it takes six actions has it take all the
    buffers now queued. -/
def WillDrain (k : Mutex.Kind) (c : SendConf) (t : Tid) : Prop :=
  ∀ ls c', exec (SendConf.next k) ErrorFree c ls = some c' → 6 ≤ ls.count (.run t) →
    DrainedIn k c t ls

/-! ## 3. Single flight -/

/-- The thread is inside a `Send` that has pushed its buffer and not returned. -/
def Pc.inPushedSend : Pc → Bool
  | .sendExchange | .sendRelease _ => true
  | .regCheck c | .regAcquire c | .regDrain c | .regRelease c _ | .regClear c | .regIssue c _ =>
      c == .send
  | _ => false

/-- The thread is between its push and its call of `RegisterSend` or its return. -/
def Pc.registering : Pc → Bool
  | .sendExchange | .sendRelease _ => true
  | _ => false

/-- The thread is inside `RegisterSend` or `ProcessSend`. -/
def Pc.inRegisterOrProcess : Pc → Bool
  | .regCheck _ | .regAcquire _ | .regDrain _ | .regRelease _ _ | .regClear _ | .regIssue _ _ =>
      true
  | .procCheck _ | .procDisconnect | .procAcquire | .procTest | .procClear | .procRelease => true
  | _ => false

/-- **Single flight**: at most one write is outstanding or being issued (a thread with a batch
    is issuing it); a queue whose pushers have returned is served by an outstanding write or by a
    thread that will drain it; and once the pushers have only reached `RegisterSend`, by one of
    these or by a write being issued. `RegisterSend` never finds the queue empty, and no thread
    waits but for a thread that holds the lock and can go on. -/
structure SingleFlight (k : Mutex.Kind) (c : SendConf) : Prop where
  oneWrite : c.sh.writes.length ≤ 1
  oneIssuer : ∀ t u, (c.pc t).batch ≠ [] → (c.pc u).batch ≠ [] → t = u
  issueAlone : ∀ t, (c.pc t).batch ≠ [] → c.sh.writes = []
  noLostWakeup : c.sh.sendQueue ≠ [] → (∀ t, (c.pc t).inPushedSend = false) →
    c.sh.writes ≠ [] ∨ ∃ t, (c.pc t).inRegisterOrProcess = true ∧ WillDrain k c t
  served : c.sh.sendQueue ≠ [] → (∀ t, (c.pc t).registering = false) →
    c.sh.writes ≠ [] ∨ (∃ t, (c.pc t).batch ≠ []) ∨
      ∃ t, (c.pc t).inRegisterOrProcess = true ∧ WillDrain k c t
  noEmptyRegister : ∀ t r, c.pc t ≠ .regClear r
  unblocked : ∀ t, c.pc t ≠ .idle → ∃ u c', (u = t ∨ 0 < Mutex.depth c.sh.sendLock u) ∧
    c.next k (.run u) = some c'

theorem Pc.token_of_batch {p : Pc} (h : p.batch ≠ []) : p.token = true := by
  cases p with
  | regRelease => rfl
  | regIssue => rfl
  | _ => exact absurd rfl h

theorem Pc.inRegisterOrProcess_of_token {p : Pc} (ht : p.token = true)
    (hp : p.registering = false) : p.inRegisterOrProcess = true := by
  cases p with
  | idle => cases ht
  | sendCheck => cases ht
  | sendAcquire => cases ht
  | sendPush => cases ht
  | sendExchange => cases ht
  | sendRelease => cases hp
  | _ => rfl

theorem Pc.registering_of_inPushedSend {p : Pc} (h : p.inPushedSend = false) :
    p.registering = false := by
  cases p with
  | sendExchange => cases h
  | sendRelease => cases h
  | _ => rfl

/-- The thread with the token is issuing a write, or on its way to the drain. -/
theorem toDrain_of_token {p : Pc} {q : List SendBytes} (hq : q ≠ []) (hk : p.Knows q)
    (ht : p.token = true) : p.batch ≠ [] ∨ ∃ n, p.toDrain = some n := by
  cases p with
  | sendRelease registerSend =>
      cases registerSend with
      | false => cases ht
      | true => exact .inr ⟨4, rfl⟩
  | regCheck => exact .inr ⟨3, rfl⟩
  | regAcquire => exact .inr ⟨2, rfl⟩
  | regDrain => exact .inr ⟨1, rfl⟩
  | regRelease => exact .inl hk.1
  | regIssue => exact .inl hk.1
  | regClear => exact hk.elim
  | procCheck => exact .inr ⟨6, rfl⟩
  | procDisconnect => exact hk.elim
  | procAcquire => exact .inr ⟨5, rfl⟩
  | procTest => exact .inr ⟨4, rfl⟩
  | procClear => exact absurd hk hq
  | _ => cases ht

/-- A thread on its way to the drain will drain the queue. -/
theorem FlowInv.willDrain {k : Mutex.Kind} {c : SendConf} (hI : FlowInv c) {t : Tid} {n : Nat}
    (hq : c.sh.sendQueue ≠ []) (hd : (c.pc t).toDrain = some n) : WillDrain k c t := by
  intro ls c' hex hn
  have := Pc.toDrain_pos hd
  exact drained_of_run ls hI hd hq hex (by omega)

/-- A non-empty queue past the exchanges of its pushers is served. -/
theorem FlowInv.served {k : Mutex.Kind} {c : SendConf} (hI : FlowInv c)
    (hq : c.sh.sendQueue ≠ []) (hreg : ∀ t, (c.pc t).registering = false) :
    c.sh.writes ≠ [] ∨ ∃ t, (c.pc t).inRegisterOrProcess = true ∧
      ((c.pc t).batch ≠ [] ∨ WillDrain k c t) := by
  have hr : c.sh.sendRegistered = true := by
    rcases hI.wake hq with hr | ⟨t, ht⟩
    · exact hr
    · have := hreg t
      rw [ht] at this
      cases this
  rcases hI.flag hI.connected hr with ⟨t, ht⟩ | hw
  · refine .inr ⟨t, Pc.inRegisterOrProcess_of_token ht (hreg t), ?_⟩
    rcases toDrain_of_token hq (hI.knows t) ht with hb | ⟨n, hn⟩
    · exact .inl hb
    · exact .inr (hI.willDrain hq hn)
  · exact .inl hw

/-- A thread that is not blocked on the lock can take its next action. -/
theorem exists_localStep {k : Mutex.Kind} {t : Tid} {s : SendState} {p : Pc} (hp : p ≠ .idle)
    (h : p.acquires = true → ∃ m, Mutex.acquire k s.sendLock t = some m) :
    ∃ r, localStep k t s p = some r := by
  cases p with
  | idle => exact absurd rfl hp
  | sendAcquire b =>
      obtain ⟨m, hm⟩ := h rfl
      exact ⟨_, by rw [localStep, hm, Option.map_some]⟩
  | regAcquire c =>
      obtain ⟨m, hm⟩ := h rfl
      exact ⟨_, by rw [localStep, hm, Option.map_some]⟩
  | procAcquire =>
      obtain ⟨m, hm⟩ := h rfl
      exact ⟨_, by rw [localStep, hm, Option.map_some]⟩
  | _ => exact ⟨_, rfl⟩

/-- **No thread blocks for good on a re-entrant lock**: it can go on, or the holder can. -/
theorem LockInv.unblocked {c : SendConf} (hI : LockInv c) {t : Tid} (ht : c.pc t ≠ .idle) :
    ∃ u c', (u = t ∨ 0 < Mutex.depth c.sh.sendLock u) ∧
      c.next .reentrant (.run u) = some c' := by
  have hgo : ∀ u, c.pc u ≠ .idle → (∃ m, Mutex.acquire .reentrant c.sh.sendLock u = some m) →
      ∃ c', c.next .reentrant (.run u) = some c' := by
    intro u hu hm
    obtain ⟨r, hr⟩ := exists_localStep hu fun _ => hm
    exact ⟨_, by rw [SendConf.next, hr, Option.map_some]⟩
  cases hl : c.sh.sendLock with
  | none =>
      obtain ⟨c', h⟩ := hgo t ht ⟨_, by rw [hl]; rfl⟩
      exact ⟨t, c', .inl rfl, h⟩
  | some hd =>
      obtain ⟨o, d⟩ := hd
      have hdepth : Mutex.depth c.sh.sendLock o = d + 1 := by
        rw [hl]
        simp [Mutex.depth]
      have ho : c.pc o ≠ .idle := by
        intro e
        have := hI o
        rw [hdepth, e] at this
        cases this
      obtain ⟨c', h⟩ := hgo o ho ⟨some (o, d + 1), by rw [hl]; simp [Mutex.acquire]⟩
      refine ⟨o, c', .inr ?_, h⟩
      rw [← hl, hdepth]
      exact Nat.succ_pos d

/-- **Single-flight sending without lost wake-ups.** On every run without errors, with the nested
    acquisition of `_sendLock` granted, the session is in single flight. -/
theorem send_single_flight :
    ∀ c, Reach (SendConf.next .reentrant) ErrorFree (.fresh true) c →
      SingleFlight .reentrant c := by
  intro c hr
  have hI : FlowInv c := .of_reach hr
  refine
    { oneWrite := hI.token.oneWrite
      oneIssuer := fun t u ht hu =>
        hI.token.unique t u (Pc.token_of_batch ht) (Pc.token_of_batch hu)
      issueAlone := fun t ht => hI.token.noWrite t (Pc.token_of_batch ht)
      noLostWakeup := fun hq hret => ?_
      served := fun hq hreg => ?_
      noEmptyRegister := fun t r hp => ?_
      unblocked := fun t ht => hI.lock.unblocked ht }
  · rcases hI.served hq fun t => Pc.registering_of_inPushedSend (hret t) with hw | ⟨t, hin, hb | hd⟩
    · exact .inl hw
    · -- a batch drained by ProcessSend is issued under the lock, so nothing was pushed since
      have hk := hI.knows t
      have hs := hret t
      cases hp : c.pc t with
      | regRelease r b =>
          rw [hp] at hk hs
          cases r with
          | send => cases hs
          | processSend => exact absurd (hk.2 rfl) hq
      | regIssue r b =>
          rw [hp] at hk hs
          cases r with
          | send => cases hs
          | processSend => exact absurd (hk.2 rfl) hq
      | _ =>
          rw [hp] at hb
          exact absurd rfl hb
    · exact .inr ⟨t, hin, hd⟩
  · rcases hI.served hq hreg with hw | ⟨t, hin, hb | hd⟩
    · exact .inl hw
    · exact .inr (.inl ⟨t, hb⟩)
    · exact .inr (.inr ⟨t, hin, hd⟩)
  · have := hI.knows t
    rw [hp] at this
    exact this

/-- Two overlapping `Send`s, while the handler of the first write is inside `RegisterSend` with
    the second buffer still queued. -/
theorem send_single_flight_overlapping :
    ∃ c, exec (SendConf.next .reentrant) ErrorFree (.fresh true)
        (sendRun 0 [1] 10 ++ sendRun 1 [2] 5 ++ completionRun 2 1 4) = some c ∧
      c.sh.sendQueue = [[2]] ∧ SingleFlight .reentrant c :=
  ⟨_, rfl, rfl, send_single_flight _ (.of_exec (sendRun 0 [1] 10 ++ sendRun 1 [2] 5 ++
    completionRun 2 1 4) rfl)⟩

end ServerCore
