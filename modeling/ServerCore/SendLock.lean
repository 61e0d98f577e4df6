/-
  File:      ServerCore/SendLock.lean
  Subject:   Who holds `_sendLock`, and when a thread waits for the lock it holds itself.

  * `LockInv`: the lock is held by each thread exactly as often as the thread's counter says
    (`Pc.held`), on every run of the machine (`LockInv.of_reach`).
  * `sendLock_law`: with the plain mutex of the code, no thread asks for a lock it holds as long
    as no completion handler finds the queue non-empty and the session still connected when it
    calls `RegisterSend`; such a call blocks its thread for ever.
-/
import ServerCore.SendMachine

namespace ServerCore

open Trans

/-! ## 1. The lock invariant -/

/-- How often the caller of `RegisterSend` holds `_sendLock`. -/
def Caller.held : Caller → Nat
  | .send => 0
  | .processSend => 1

/-- How often a thread at this counter holds `_sendLock`. -/
def Pc.held : Pc → Nat
  | .sendPush _ | .sendExchange | .sendRelease _ => 1
  | .regCheck c | .regAcquire c | .regClear c | .regIssue c _ => c.held
  | .regDrain c | .regRelease c _ => c.held + 1
  | .procTest | .procClear | .procRelease => 1
  | .idle | .sendCheck _ | .sendAcquire _ | .procCheck _ | .procDisconnect | .procAcquire => 0

theorem Caller.held_return (c : Caller) : c.return.held = c.held := by
  cases c <;> rfl

/-- **What a step does to the lock**: it leaves it alone, or the thread acquires it, or it
    releases a lock it holds. -/
theorem localStep_lock {k : Mutex.Kind} {t : Tid} {s s' : SendState} {p p' : Pc}
    (h : localStep k t s p = some (s', p')) :
    (s'.sendLock = s.sendLock ∧ p'.held = p.held) ∨
    (Mutex.acquire k s.sendLock t = some s'.sendLock ∧ p'.held = p.held + 1) ∨
    (s'.sendLock = Mutex.release s.sendLock ∧ p.held = p'.held + 1) := by
  cases sendAction_of_step h with
  | sendAcquire b m hm => exact .inr (.inl ⟨hm, rfl⟩)
  | regAcquire c m hm => exact .inr (.inl ⟨hm, rfl⟩)
  | procAcquire m hm => exact .inr (.inl ⟨hm, rfl⟩)
  | sendRegister | sendRelease | regEmpty | regSome | procRelease => exact .inr (.inr ⟨rfl, rfl⟩)
  | registerDead c | regClear c | issue c => exact .inl ⟨rfl, c.held_return⟩
  | _ => exact .inl ⟨rfl, rfl⟩

/-- **The lock invariant**: every thread holds the lock as often as its counter says. -/
def LockInv (c : SendConf) : Prop := ∀ t, Mutex.depth c.sh.sendLock t = (c.pc t).held

theorem lockInv_fresh (connected : Bool) : LockInv (.fresh connected) := fun _ => rfl

/-- What the threads hold after one of them moved. -/
theorem SendConf.held_set (c : SendConf) (t : Tid) (sh : SendState) (p : Pc) :
    (fun u => ((c.set t sh p).pc u).held) =
      Function.update (fun u => (c.pc u).held) t p.held :=
  Function.comp_update Pc.held c.pc t p

/-- A thread moved without the lock. -/
theorem LockInv.keep {c : SendConf} (hI : LockInv c) {t : Tid} {sh : SendState} {p : Pc}
    (hl : sh.sendLock = c.sh.sendLock) (hh : p.held = (c.pc t).held) :
    LockInv (c.set t sh p) := by
  show Mutex.HeldBy sh.sendLock _
  rw [c.held_set, hl]
  exact Mutex.HeldBy.keep hI hh

theorem LockInv.step {k : Mutex.Kind} {c c' : SendConf} {l : Label} (hI : LockInv c)
    (h : c.next k l = some c') : LockInv c' := by
  cases stepped_of_next h with
  | call t b hidle => exact hI.keep rfl (by rw [hidle]; rfl)
  | run t sh p hs =>
      rcases localStep_lock hs with ⟨hl, hp⟩ | ⟨hl, hp⟩ | ⟨hl, hp⟩
      · exact hI.keep hl hp
      · show Mutex.HeldBy sh.sendLock _
        rw [c.held_set]
        exact Mutex.HeldBy.acquire hI hl hp
      · show Mutex.HeldBy sh.sendLock _
        rw [c.held_set, hl]
        exact Mutex.HeldBy.release hI hp
  | transmit i n buffers hw hn => exact hI
  | complete t i n buffers hw hidle => exact hI.keep rfl (by rw [hidle]; rfl)
  | fail i error buffers hw =>
      intro u
      simpa only [SendState.handleError_eq] using hI u
  | disconnect => exact hI
  | connect => exact hI

/-- **The lock invariant holds on every run**, for both kinds of mutex. -/
theorem LockInv.of_reach {k : Mutex.Kind} {ok : SendConf → Label → Prop} {connected : Bool}
    {c : SendConf} (hr : Reach (SendConf.next k) ok (.fresh connected) c) : LockInv c :=
  hr.invariant (lockInv_fresh connected) fun _ _ _ hI _ h => hI.step h

/-- Two threads inside the lock are one thread. -/
theorem LockInv.unique {c : SendConf} (hI : LockInv c) {t u : Tid} (ht : 0 < (c.pc t).held)
    (hu : 0 < (c.pc u).held) : t = u :=
  Mutex.HeldBy.unique hI ht hu

/-! ## 2. The nested acquisition -/

/-- The thread's next action is an acquisition of `_sendLock`. -/
def Pc.acquires : Pc → Bool
  | .sendAcquire _ | .regAcquire _ | .procAcquire => true
  | _ => false

/-- Thread `t` asks for `_sendLock` while it holds it. -/
def SelfLock (c : SendConf) (t : Tid) : Prop :=
  (c.pc t).acquires = true ∧ 0 < Mutex.depth c.sh.sendLock t

/-- A completion handler that found the queue non-empty goes on, by its own actions, to hand
    the queued buffers to the next write. -/
def IssuesNext (c : SendConf) (t : Tid) : Prop :=
  c.pc t = .regAcquire .processSend →
    ∃ c', exec (SendConf.next .plain) always c [.run t, .run t, .run t, .run t] = some c' ∧
      c'.sh.writes = c.sh.writes ++ [⟨c.sh.sendQueue, none⟩]

/-- No completion handler calls `RegisterSend` on a connected session: none finds `_sendQueue`
    non-empty, unless the session is disconnected by the time `RegisterSend` looks. -/
def NoNestedRegister (c : SendConf) : Label → Prop
  | .run t => c.pc t = .regCheck .processSend → c.sh.connected = false
  | _ => True

instance (c : SendConf) : (l : Label) → Decidable (NoNestedRegister c l)
  | .run t =>
      inferInstanceAs (Decidable (c.pc t = .regCheck .processSend → c.sh.connected = false))
  | .call _ _ | .transmit _ _ | .complete _ _ | .fail _ _ | .disconnect | .connect =>
      .isTrue trivial

/-- Only a thread inside `ProcessSend -> RegisterSend` acquires with the lock in hand. -/
theorem Pc.eq_of_acquires_of_held {p : Pc} (ha : p.acquires = true) (hh : 0 < p.held) :
    p = .regAcquire .processSend := by
  cases p with
  | regAcquire c =>
      cases c with
      | send => exact absurd hh (Nat.lt_irrefl 0)
      | processSend => rfl
  | sendAcquire b => exact absurd hh (Nat.lt_irrefl 0)
  | procAcquire => exact absurd hh (Nat.lt_irrefl 0)
  | _ => cases ha

/-- The only action that leads into the nested acquisition is `RegisterSend`'s test of a
    connected session. -/
theorem localStep_eq_regAcquire {k : Mutex.Kind} {t : Tid} {s s' : SendState} {p : Pc}
    {c : Caller} (h : localStep k t s p = some (s', .regAcquire c)) :
    p = .regCheck c ∧ s.connected = true := by
  generalize hp' : Pc.regAcquire c = p' at h
  cases sendAction_of_step h with
  | register d hc =>
      cases hp'
      exact ⟨rfl, hc⟩
  | registerDead d | regClear d | issue d => cases d <;> cases hp'
  | _ => cases hp'

/-- The runs without a nested call never have a thread at the nested acquisition. -/
theorem pc_ne_regAcquire {k : Mutex.Kind} {connected : Bool} {c : SendConf}
    (hr : Reach (SendConf.next k) NoNestedRegister (.fresh connected) c) (t : Tid) :
    c.pc t ≠ .regAcquire .processSend := by
  refine hr.invariant (I := fun c => ∀ t, c.pc t ≠ .regAcquire .processSend)
    (fun _ => Pc.noConfusion) (fun c c' l hI hok h u => ?_) t
  cases stepped_of_next h with
  | call t b hidle =>
      exact SendConf.forall_pc_set (Q := (· ≠ .regAcquire .processSend)) hI (by simp) u
  | run t sh p hs =>
      refine SendConf.forall_pc_set (Q := (· ≠ .regAcquire .processSend)) hI ?_ u
      rintro rfl
      obtain ⟨hp, hc⟩ := localStep_eq_regAcquire hs
      rw [hok hp] at hc
      cases hc
  | complete t i n buffers hw hidle =>
      exact SendConf.forall_pc_set (Q := (· ≠ .regAcquire .processSend)) hI (by simp) u
  | transmit => exact hI u
  | fail => exact hI u
  | disconnect => exact hI u
  | connect => exact hI u

/-- A thread that holds the plain mutex and asks for it never moves again. -/
theorem SelfLock.step {c c' : SendConf} {l : Label} {t : Tid} (hI : LockInv c)
    (hs : SelfLock c t) (h : c.next .plain l = some c') : c'.pc t = c.pc t := by
  have hp := Pc.eq_of_acquires_of_held hs.1 (by rw [← hI t]; exact hs.2)
  cases stepped_of_next h with
  | call u b hidle =>
      have hu : t ≠ u := by
        rintro rfl
        rw [hp] at hidle
        cases hidle
      exact SendConf.set_pc_of_ne _ _ _ hu
  | run u sh p hstep =>
      have hu : t ≠ u := by
        rintro rfl
        rw [hp] at hstep
        simp [localStep, Mutex.acquire_plain_of_held hs.2] at hstep
      exact SendConf.set_pc_of_ne _ _ _ hu
  | complete u i n buffers hw hidle =>
      have hu : t ≠ u := by
        rintro rfl
        rw [hp] at hidle
        cases hidle
      exact SendConf.set_pc_of_ne _ _ _ hu
  | transmit => rfl
  | fail => rfl
  | disconnect => rfl
  | connect => rfl

/-- **The law of the send lock** in one configuration: no thread asks for a lock it holds, and a
    completion handler that found the queue non-empty issues the next write. -/
structure SendLockLaw (c : SendConf) : Prop where
  noSelfLock : ∀ t, ¬ SelfLock c t
  issuesNext : ∀ t, IssuesNext c t

/-- **When the law of the send lock holds.** On every run in which no completion handler calls
    `RegisterSend` on a connected session it holds in every configuration; after such a call the
    thread is, in every configuration that follows, waiting for the lock it holds, and the next
    write is never issued. -/
theorem sendLock_law (connected : Bool) :
    (∀ c, Reach (SendConf.next .plain) NoNestedRegister (.fresh connected) c → SendLockLaw c) ∧
    (∀ c c' t, Reach (SendConf.next .plain) always (.fresh connected) c →
      ¬ NoNestedRegister c (.run t) → c.next .plain (.run t) = some c' →
      ∀ c'', Reach (SendConf.next .plain) always c' c'' →
        SelfLock c'' t ∧ ¬ IssuesNext c'' t) := by
  constructor
  · intro c hr
    have hlock : LockInv c := .of_reach hr
    have hne := pc_ne_regAcquire hr
    refine ⟨fun t hs => hne t ?_, fun t hp => absurd hp (hne t)⟩
    exact Pc.eq_of_acquires_of_held hs.1 (by rw [← hlock t]; exact hs.2)
  · intro c c' t hr hbad h c'' hr'
    have hreach : Reach (SendConf.next .plain) always (.fresh connected) c' :=
      .step c c' (.run t) hr trivial h
    -- the violating action enters the nested acquisition
    have hpc : c'.pc t = .regAcquire .processSend := by
      simp only [NoNestedRegister, Classical.not_imp, Bool.not_eq_false] at hbad
      obtain ⟨hp, hc⟩ := hbad
      simp only [SendConf.next, hp, localStep, hc, if_pos, Option.map_some,
        Option.some.injEq] at h
      rw [← h, SendConf.set_pc_self]
    have hstay : c''.pc t = .regAcquire .processSend ∧ LockInv c'' := by
      refine hr'.invariant (I := fun c => c.pc t = .regAcquire .processSend ∧ LockInv c)
        ⟨hpc, .of_reach hreach⟩ fun c₁ c₂ l hI _ h₁ => ?_
      have hs : SelfLock c₁ t := ⟨by rw [hI.1]; rfl, by rw [hI.2 t, hI.1]; decide⟩
      exact ⟨(hs.step hI.2 h₁).trans hI.1, hI.2.step h₁⟩
    have hheld : 0 < Mutex.depth c''.sh.sendLock t := by
      rw [hstay.2 t, hstay.1]
      decide
    refine ⟨⟨by rw [hstay.1]; rfl, hheld⟩, fun hissue => ?_⟩
    obtain ⟨c₃, hex, -⟩ := hissue hstay.1
    simp [exec, always, SendConf.next, hstay.1, localStep, Mutex.acquire_plain_of_held hheld] at hex

/-- The law on the run of one `Send` and the completion of its write, and its failure on the run
    in which a second `Send` overlaps the write. -/
theorem sendLock_law_runs :
    (∃ c, exec (SendConf.next .plain) NoNestedRegister (.fresh true)
        (sendRun 0 [1] 10 ++ completionRun 0 1 5) = some c ∧ c.sh.wire = [1] ∧ SendLockLaw c) ∧
    (∃ c, exec (SendConf.next .plain) always (.fresh true)
        (sendRun 0 [1] 10 ++ sendRun 1 [2] 5 ++ completionRun 2 1 4) = some c ∧
        ¬ IssuesNext c 2) := by
  refine ⟨⟨_, rfl, rfl, (sendLock_law true).1 _ (.of_exec (sendRun 0 [1] 10 ++
    completionRun 0 1 5) rfl)⟩, ⟨_, rfl, ?_⟩⟩
  exact ((sendLock_law true).2 _ _ 2 (.of_exec (sendRun 0 [1] 10 ++ sendRun 1 [2] 5 ++
    completionRun 2 1 3) rfl) (by decide) rfl _ .start).2

/-- Two overlapping `Send`s: the completion of the first write finds the second buffer queued,
    and its thread waits for the lock it holds. -/
theorem selfLock_of_overlapping_sends :
    ∃ c, Reach (SendConf.next .plain) always (.fresh true) c ∧ SelfLock c 2 ∧
      ¬ SendLockLaw c :=
  ⟨_, .of_exec (sendRun 0 [1] 10 ++ sendRun 1 [2] 5 ++ completionRun 2 1 4) rfl,
    ⟨rfl, by decide⟩, fun h => h.noSelfLock 2 ⟨rfl, by decide⟩⟩

end ServerCore
