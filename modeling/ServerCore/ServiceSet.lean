/-
  File:      ServerCore/ServiceSet.lean
  Subject:   `_sessions` and `_sessionCount` of a Service against the calls made.

  `ServiceMove` says what a thread's step does to the set and to the log. `_sessionCount` counts
  the calls of `AddSession` less those of `ReleaseSession`, except between a change of the set and
  the change of the count that belongs to it (`Counted`): on every run.

  The set agrees with the log only where a session leaves after it was added and `CloseService`
  clears nothing (`Orderly`): then it holds the sessions added and not released, and its size is
  the count whenever the lock is free (`Settled`, `count_eq_card`).
-/
import Mathlib.Algebra.BigOperators.Group.List.Basic
import Mathlib.Algebra.Ring.Int.Defs
import ServerCore.ServiceLife

namespace ServerCore

open Trans

/-! ## 1. What a step does to the set and the log -/

/-- **What a thread's step does to `_sessions` and to the log**, by the counter it was at. -/
inductive ServiceMove (s s' : ServiceState) (p : ServicePc) : Prop where
  | quiet (hset : s'.sessions = s.sessions) (hlog : s'.log = s.log)
  | insert (k : ConnectCaller) (i : Sid) (hp : p = .connecting k i .insert)
      (hset : s'.sessions = insert i s.sessions) (hlog : s'.log = s.log ++ [.call .addSession i])
  | onConnected (k : ConnectCaller) (i : Sid) (hp : p = .connecting k i .callback)
      (hset : s'.sessions = s.sessions) (hlog : s'.log = s.log ++ [.call .onConnected i])
  | exchange (d : DisconnectCaller) (i : Sid) (hp : p = .disconnecting d i .exchange)
      (hset : s'.sessions = s.sessions)
      (hlog : s'.log = s.log ++ [if s.connected i then .call .disconnect i else .ignored i])
  | onDisconnected (d : DisconnectCaller) (i : Sid) (hp : p = .disconnecting d i .callback)
      (hset : s'.sessions = s.sessions) (hlog : s'.log = s.log ++ [.call .onDisconnected i])
  | erase (d : DisconnectCaller) (i : Sid) (hp : p = .disconnecting d i .erase)
      (hset : s'.sessions = s.sessions.erase i)
      (hlog : s'.log = s.log ++ [.call .releaseSession i])
  | clear (visited : List Sid) (hp : p = .closing visited .clear) (hset : s'.sessions = ∅)
      (hlog : s'.log = s.log)

theorem serviceStep_move {limit : Int} {t : Tid} {s s' : ServiceState} {p q : ServicePc}
    (h : serviceStep limit t s p = some (s', q)) : ServiceMove s s' p := by
  cases serviceAction_of_step h with
  | insert k i => exact .insert k i rfl rfl rfl
  | onConnected k i => exact .onConnected k i rfl rfl rfl
  | exchange d i hconn => exact .exchange d i rfl rfl (by rw [if_pos hconn])
  | exchangeIgnored d i hdead => exact .exchange d i rfl rfl (by rw [hdead]; rfl)
  | onDisconnected d i => exact .onDisconnected d i rfl rfl rfl
  | erase d i => exact .erase d i rfl rfl rfl
  | clear visited => exact .clear visited rfl rfl rfl
  | _ => exact .quiet rfl rfl

/-- Of all labels, only a thread's own step touches the set and the log. -/
theorem serviceMove_of_next {limit : Int} {c c' : ServiceConf} {l : ServiceLabel}
    (h : c.next limit l = some c') :
    (∃ t, l = .run t ∧ ServiceMove c.sh c'.sh (c.pc t)) ∨
      (c'.sh.sessions = c.sh.sessions ∧ c'.sh.log = c.sh.log) := by
  cases serviceStepped_of_next h with
  | run t sh p hs => exact .inl ⟨t, rfl, serviceStep_move hs⟩
  | acceptError | accept | connect | receive | write | hold | drop | send | disconnect
  | closeService | visit => exact .inr ⟨rfl, rfl⟩

/-- The log only grows. -/
theorem ServiceMove.log_prefix {s s' : ServiceState} {p : ServicePc} (h : ServiceMove s s' p) :
    s.log <+: s'.log := by
  cases h with
  | quiet hset hlog | clear _ _ hset hlog => rw [hlog]
  | insert _ _ _ hset hlog | onConnected _ _ _ hset hlog | exchange _ _ _ hset hlog
  | onDisconnected _ _ _ hset hlog | erase _ _ _ hset hlog =>
      rw [hlog]
      exact List.prefix_append _ _

theorem log_prefix_of_next {limit : Int} {c c' : ServiceConf} {l : ServiceLabel}
    (h : c.next limit l = some c') : c.sh.log <+: c'.sh.log := by
  rcases serviceMove_of_next h with ⟨t, -, hm⟩ | ⟨-, hlog⟩
  · exact hm.log_prefix
  · rw [hlog]

/-! ## 2. The count -/

/-- What a call does to `_sessionCount`. -/
def ServiceEvent.weight : ServiceEvent → Int
  | .call .addSession _ => 1
  | .call .releaseSession _ => -1
  | .call .onConnected _ | .call .disconnect _ | .call .onDisconnected _ | .ignored _ => 0

/-- The calls of `AddSession` less those of `ReleaseSession`. -/
def balance (log : List ServiceEvent) : Int := (log.map ServiceEvent.weight).sum

theorem balance_append (log : List ServiceEvent) (e : ServiceEvent) :
    balance (log ++ [e]) = balance log + e.weight := by
  simp [balance]

/-- What `_sessionCount` still lacks while a thread is between `_sessions` and the count. -/
def ServicePc.drift : ServicePc → Int
  | .connecting _ _ .count => -1
  | .disconnecting _ _ .count => 1
  | _ => 0

@[simp] theorem ConnectCaller.drift_return (k : ConnectCaller) : k.return.drift = 0 := by
  cases k <;> rfl

@[simp] theorem RecvCaller.drift_return (r : RecvCaller) : r.return.drift = 0 := by
  rcases r with (_ | _) | _ <;> rfl

@[simp] theorem DisconnectCaller.drift_return (d : DisconnectCaller) : d.return.drift = 0 := by
  cases d <;> rfl

/-- Only a thread inside the lock owes something to the count. -/
theorem ServicePc.held_of_drift {p : ServicePc} (h : p.drift ≠ 0) : 0 < p.held := by
  unfold ServicePc.drift at h
  split at h
  · exact Nat.one_pos
  · exact Nat.succ_pos _
  · exact absurd rfl h

/-- The part of the count that a step of one thread leaves alone. -/
def settledCount (s : ServiceState) (p : ServicePc) : Int :=
  s.sessionCount - balance s.log - p.drift

/-- **Each step settles the count it changes.** -/
theorem serviceStep_count {limit : Int} {t : Tid} {s s' : ServiceState} {p q : ServicePc}
    (h : serviceStep limit t s p = some (s', q)) : settledCount s' q = settledCount s p := by
  unfold settledCount
  cases serviceAction_of_step h with
  | insert | countUp | onConnected | exchange | onDisconnected | erase | countDown =>
      simp only [balance_append, ServiceEvent.weight, ServicePc.drift]
      omega
  | registerDead r | issueReceive r =>
      rw [r.drift_return]
      rfl
  | exchangeIgnored d =>
      rw [d.drift_return, balance_append]
      simp only [ServiceEvent.weight, ServicePc.drift]
      omega
  | disconnectRelease d =>
      rw [d.drift_return]
      rfl
  | _ => rfl

/-- **The count**: where all threads but `t` owe nothing, it is the balance of the calls and what
    `t` owes. -/
def Counted (c : ServiceConf) : Prop :=
  ∀ t, (∀ u, u ≠ t → (c.pc u).drift = 0) → settledCount c.sh (c.pc t) = 0

/-- A step of `t` that settles the count it changes. -/
theorem Counted.set {c : ServiceConf} (hI : Counted c) (hlock : ServiceLock c) {t : Tid}
    {sh : ServiceState} {p : ServicePc} (h : settledCount sh p = settledCount c.sh (c.pc t)) :
    Counted (c.set t sh p) := by
  intro u hu
  by_cases htu : u = t
  · subst htu
    rw [ServiceConf.set_pc_self, ServiceConf.set_sh, h]
    refine hI u fun v hv => ?_
    rw [← c.set_pc_of_ne sh p hv]
    exact hu v hv
  · have hp : p.drift = 0 := by
      have := hu t (Ne.symm htu)
      rwa [ServiceConf.set_pc_self] at this
    have hothers : ∀ v, v ≠ u → v ≠ t → (c.pc v).drift = 0 := by
      intro v hv hvt
      rw [← c.set_pc_of_ne sh p hvt]
      exact hu v hv
    rw [ServiceConf.set_sh, c.set_pc_of_ne sh p htu]
    unfold settledCount at h ⊢
    by_cases hd : (c.pc t).drift = 0
    · -- the step of `t` does not touch what `u` owes
      have := hI u fun v hv => by
        by_cases hvt : v = t
        · rw [hvt, hd]
        · exact hothers v hv hvt
      unfold settledCount at this
      omega
    · -- `t` is inside the lock, so `u` owes nothing
      have hheld : ∀ v, v ≠ t → (c.pc v).drift = 0 := by
        intro v hv
        by_contra hne
        exact hv (hlock.unique (ServicePc.held_of_drift hne) (ServicePc.held_of_drift hd))
      have := hI t hheld
      have hu0 := hheld u htu
      unfold settledCount at this
      omega

theorem Counted.step {limit : Int} {c c' : ServiceConf} {l : ServiceLabel} (hI : Counted c)
    (hlock : ServiceLock c) (h : c.next limit l = some c') : Counted c' := by
  cases serviceStepped_of_next h with
  | run t sh p hs => exact hI.set hlock (serviceStep_count hs)
  | acceptError t ha hidle | accept t ha hidle | connect t hidle | receive t i o hr hidle
  | write t i o hw hidle => exact hI.set hlock (by rw [hidle]; rfl)
  | hold i source hs => exact hI
  | drop i hh => exact hI
  | send t i hh hidle | disconnect t i hh hidle | closeService t hidle =>
      exact hI.set hlock (by rw [hidle]; rfl)
  | visit t i visited hp hv hi hnew => exact hI.set hlock (by rw [hp]; rfl)

theorem started_drift (server : Bool) (t : Tid) :
    ((ServiceConf.started server).pc t).drift = 0 := by
  unfold ServiceConf.started
  dsimp only
  split <;> rfl

/-- **The count is right on every run.** -/
theorem counted_of_reach {limit : Int} {ok : ServiceConf → ServiceLabel → Prop} {server : Bool}
    {c : ServiceConf} (hr : Reach (ServiceConf.next limit) ok (.started server) c) :
    Counted c := by
  refine (hr.invariant (I := fun c => ServiceLock c ∧ Counted c) ⟨serviceLock_started server, ?_⟩
    fun _ _ _ hI _ h => ⟨hI.1.step h, hI.2.step hI.1 h⟩).2
  intro t _
  unfold settledCount
  rw [started_drift]
  rfl

/-- With the lock free nobody owes anything. -/
theorem Counted.of_free {c : ServiceConf} (hI : Counted c) (hlock : ServiceLock c)
    (hfree : c.sh.lock = none) : c.sh.sessionCount = balance c.sh.log := by
  have hdrift : ∀ t, (c.pc t).drift = 0 := by
    intro t
    by_contra hne
    have hheld := hlock t
    rw [hfree] at hheld
    exact absurd hheld.symm (Nat.pos_iff_ne_zero.mp (ServicePc.held_of_drift hne))
  have := hI 0 fun u _ => hdrift u
  unfold settledCount at this
  have := hdrift 0
  omega

/-! ## 3. The set -/

theorem LifeOf.mem {c : ServiceConf} {i : Sid} {l : Life} {e : Ending} (h : LifeOf c i l e)
    (k : ServiceCall) : ServiceEvent.call k i ∈ c.sh.log ↔ made l e k = true := by
  rw [← List.count_pos_iff, h.calls k]
  cases made l e k <;> decide

/-- **An orderly step**: a connected session leaves only after it was added, and `CloseService`
    clears a set that is empty. -/
def Orderly (c : ServiceConf) : ServiceLabel → Prop
  | .run t => match c.pc t with
    | .disconnecting _ i .exchange =>
        c.sh.connected i = true → .call .addSession i ∈ c.sh.log
    | .closing _ .clear => c.sh.sessions = ∅
    | _ => True
  | _ => True

/-- **The set against the log.** -/
structure Settled (c : ServiceConf) : Prop where
  mem : ∀ i, i ∈ c.sh.sessions ↔
    .call .addSession i ∈ c.sh.log ∧ .call .releaseSession i ∉ c.sh.log
  first : ∀ i, .call .disconnect i ∈ c.sh.log → .call .addSession i ∈ c.sh.log
  size : balance c.sh.log = c.sh.sessions.card

/-- A step that leaves the set alone and records no `AddSession` and no `ReleaseSession`. -/
theorem Settled.note {c c' : ServiceConf} (hI : Settled c) {e : ServiceEvent}
    (hset : c'.sh.sessions = c.sh.sessions) (hlog : c'.sh.log = c.sh.log ++ [e])
    (hadd : ∀ i, e ≠ .call .addSession i) (hrelease : ∀ i, e ≠ .call .releaseSession i)
    (hfirst : ∀ i, e = .call .disconnect i → .call .addSession i ∈ c.sh.log) : Settled c' where
  mem i := by
    rw [hset, hlog, hI.mem i]
    simp [Ne.symm (hadd i), Ne.symm (hrelease i)]
  first i := by
    rw [hlog]
    simp only [List.mem_append, List.mem_singleton, Ne.symm (hadd i), or_false]
    rintro (h | h)
    · exact hI.first i h
    · exact hfirst i h.symm
  size := by
    rw [hset, hlog, balance_append, hI.size]
    have hweight : e.weight = 0 := by
      rcases e with ⟨_ | _ | _ | _ | _, i⟩ | i <;> first | rfl | simp_all
    omega

/-- A session is inserted. -/
theorem Settled.insert {c c' : ServiceConf} (hI : Settled c) {i : Sid}
    (hset : c'.sh.sessions = insert i c.sh.sessions)
    (hlog : c'.sh.log = c.sh.log ++ [.call .addSession i])
    (hnew : .call .addSession i ∉ c.sh.log) (hkept : .call .releaseSession i ∉ c.sh.log) :
    Settled c' where
  mem j := by
    rw [hset, hlog, Finset.mem_insert, hI.mem j]
    by_cases hj : j = i
    · subst hj
      simp [hkept]
    · simp [hj]
  first j := by
    rw [hlog]
    simp only [List.mem_append, List.mem_singleton, reduceCtorEq, ServiceEvent.call.injEq,
      false_and, or_false]
    exact fun h => .inl (hI.first j h)
  size := by
    have hout : i ∉ c.sh.sessions := fun hi => hnew ((hI.mem i).mp hi).1
    rw [hset, hlog, balance_append, hI.size, Finset.card_insert_of_notMem hout]
    rfl

/-- A session that is in the set is erased. -/
theorem Settled.erase {c c' : ServiceConf} (hI : Settled c) {i : Sid}
    (hset : c'.sh.sessions = c.sh.sessions.erase i)
    (hlog : c'.sh.log = c.sh.log ++ [.call .releaseSession i]) (hin : i ∈ c.sh.sessions) :
    Settled c' where
  mem j := by
    rw [hset, hlog, Finset.mem_erase, hI.mem j]
    by_cases hj : j = i
    · subst hj
      simp
    · simp [hj]
  first j := by
    rw [hlog]
    simp only [List.mem_append, List.mem_singleton, reduceCtorEq, ServiceEvent.call.injEq,
      false_and, or_false]
    exact hI.first j
  size := by
    have hpos := Finset.card_pos.mpr ⟨i, hin⟩
    rw [hset, hlog, balance_append, hI.size, Finset.card_erase_of_mem hin]
    simp only [ServiceEvent.weight]
    omega

/-- **An orderly step keeps the set and the log together.** -/
theorem Settled.step {limit : Int} {c c' : ServiceConf} {l : ServiceLabel} (hI : Settled c)
    (hlife : ∀ i, ∃ l e, LifeOf c i l e) (hok : Orderly c l) (h : c.next limit l = some c') :
    Settled c' := by
  have hsame : c'.sh.sessions = c.sh.sessions → c'.sh.log = c.sh.log → Settled c' := by
    intro hset hlog
    exact ⟨by rw [hset, hlog]; exact hI.mem, by rw [hlog]; exact hI.first,
      by rw [hset, hlog]; exact hI.size⟩
  rcases serviceMove_of_next h with ⟨t, rfl, hm⟩ | ⟨hset, hlog⟩
  · cases hm with
    | quiet hset hlog => exact hsame hset hlog
    | insert k i hp hset hlog =>
        obtain ⟨l, e, hl⟩ := hlife i
        obtain rfl := hl.joining_of_pc (t := t) (k := .stored) (by rw [hp]; rfl)
        have hnew : ServiceEvent.call .addSession i ∉ c.sh.log := by
          rw [hl.mem]
          nofun
        refine hI.insert hset hlog hnew ?_
        -- it was not released, since it has not been disconnected before it was added
        rw [hl.mem]
        intro hreleased
        refine hnew (hI.first i ?_)
        rw [hl.mem]
        cases e with
        | none => nomatch hreleased
        | leaving | released => rfl
    | onConnected k i hp hset hlog => exact hI.note hset hlog nofun nofun nofun
    | exchange d i hp hset hlog =>
        simp only [Orderly, hp] at hok
        refine hI.note hset hlog ?_ ?_ ?_
        · intro j
          split <;> simp
        · intro j
          split <;> simp
        · intro j hj
          split at hj
          · rename_i hconn
            cases hj
            exact hok hconn
          · nomatch hj
    | onDisconnected d i hp hset hlog => exact hI.note hset hlog nofun nofun nofun
    | erase d i hp hset hlog =>
        obtain ⟨l, e, hl⟩ := hlife i
        obtain rfl := hl.leaving_of_pc (t := t) (k := .leaving) (by rw [hp]; rfl)
        refine hI.erase hset hlog ((hI.mem i).mpr ⟨hI.first i ?_, ?_⟩)
        · rw [hl.mem]
          rfl
        · rw [hl.mem]
          nofun
    | clear visited hp hset hlog =>
        simp only [Orderly, hp] at hok
        exact hsame (hset.trans hok.symm) hlog
  · exact hsame hset hlog

theorem settled_started (server : Bool) : Settled (.started server) where
  mem i := by simp [ServiceConf.started, ServiceState.fresh]
  first i h := by simp [ServiceConf.started, ServiceState.fresh] at h
  size := rfl

/-- **With the lock free, the count is the size of the set.** -/
theorem count_eq_card {c : ServiceConf} (hlock : ServiceLock c) (hcount : Counted c)
    (hset : Settled c) (hfree : c.sh.lock = none) :
    c.sh.sessionCount = c.sh.sessions.card := by
  rw [hcount.of_free hlock hfree, hset.size]

/-! ## 4. What has returned -/

/-- The way in of the session is over: `ProcessConnect` has called `OnConnected`, or the accept
    handler has refused it. -/
def Arrived (c : ServiceConf) (i : Sid) : Prop :=
  i < c.sh.created ∧ ∀ u k, (c.pc u).joins ≠ some (i, k)

/-- A thread brings in the session it brought in before. -/
theorem serviceStep_joins {limit : Int} {t : Tid} {s s' : ServiceState} {p q : ServicePc}
    {i : Sid} {k : Joining} (h : serviceStep limit t s p = some (s', q))
    (hq : q.joins = some (i, k)) : s'.created = s.created ∧ ∃ k', p.joins = some (i, k') := by
  cases serviceAction_of_step h with
  | allow j | connectAcquire c j | refuse j => exact ⟨rfl, k, hq⟩
  | store c j | insert c j | countUp c j | connectRelease c j =>
      simp only [ServicePc.joins, Option.some.injEq, Prod.mk.injEq] at hq
      exact ⟨rfl, _, by rw [← hq.1]; rfl⟩
  | registerDead r | issueReceive r => cases r.joins_return.symm.trans hq
  | exchange d | close d | onDisconnected d | disconnectAcquire d | erase d | countDown d =>
      -- past its exchange, `Disconnect` brings no session in
      cases d <;> cases hq
  | exchangeIgnored d | disconnectRelease d => cases d.joins_return.symm.trans hq
  | _ => cases hq

theorem serviceStep_created {limit : Int} {t : Tid} {s s' : ServiceState} {p q : ServicePc}
    (h : serviceStep limit t s p = some (s', q)) : s'.created = s.created := by
  cases serviceAction_of_step h <;> rfl

theorem Arrived.set {c : ServiceConf} {i : Sid} (hI : Arrived c i) {t : Tid} {sh : ServiceState}
    {p : ServicePc} (hcreated : c.sh.created ≤ sh.created)
    (hp : ∀ k, p.joins ≠ some (i, k)) : Arrived (c.set t sh p) i := by
  refine ⟨Nat.lt_of_lt_of_le hI.1 hcreated, fun u k => ?_⟩
  by_cases hu : u = t
  · subst hu
    rw [ServiceConf.set_pc_self]
    exact hp k
  · rw [c.set_pc_of_ne sh p hu]
    exact hI.2 u k

/-- **A way in that is over stays over.** -/
theorem Arrived.step {limit : Int} {c c' : ServiceConf} {l : ServiceLabel} {i : Sid}
    (hI : Arrived c i) (h : c.next limit l = some c') : Arrived c' i := by
  have hnew : ∀ k, some (c.sh.created, Joining.accepted) ≠ some (i, k) := by
    rintro k ⟨⟩
    exact Nat.lt_irrefl _ hI.1
  cases serviceStepped_of_next h with
  | acceptError t ha hidle => exact hI.set (Nat.le_refl _) nofun
  | accept t ha hidle => exact hI.set (Nat.le_succ _) hnew
  | connect t hidle => exact hI.set (Nat.le_succ _) hnew
  | receive t j o hr hidle => exact hI.set (Nat.le_refl _) nofun
  | write t j o hw hidle => exact hI.set (Nat.le_refl _) nofun
  | hold j source hs => exact hI
  | drop j hh => exact hI
  | send t j hh hidle | disconnect t j hh hidle | closeService t hidle
  | visit t j visited hp hv hj hnew => exact hI.set (Nat.le_refl _) nofun
  | run t sh p hs =>
      refine hI.set (Nat.le_of_eq (serviceStep_created hs).symm) fun k hk => ?_
      obtain ⟨-, k', hk'⟩ := serviceStep_joins hs hk
      exact hI.2 t k' hk'

/-- A step whose `Disconnect`, if any, is the accept handler's, or comes to a session that was
    added or whose way in is over. -/
def Timely (c : ServiceConf) : ServiceLabel → Prop
  | .run t => match c.pc t with
    | .disconnecting d i .exchange =>
        d = .accept ∨ .call .addSession i ∈ c.sh.log ∨ Arrived c i
    | _ => True
  | _ => True

/-- A `Disconnect` that found the session not connected came after one that did, or the session
    never comes in. -/
def Answered (c : ServiceConf) : Prop :=
  ∀ i, .ignored i ∈ c.sh.log →
    .call .disconnect i ∈ c.sh.log ∨ (Arrived c i ∧ .call .addSession i ∉ c.sh.log)

/-- A session whose way in is over is not added any more. -/
theorem Arrived.not_added {limit : Int} {c c' : ServiceConf} {l : ServiceLabel} {i : Sid}
    (hI : Arrived c i) (h : c.next limit l = some c')
    (hout : ServiceEvent.call .addSession i ∉ c.sh.log) :
    ServiceEvent.call .addSession i ∉ c'.sh.log := by
  rcases serviceMove_of_next h with ⟨t, rfl, hm⟩ | ⟨-, hlog⟩
  · cases hm with
    | quiet hset hlog | clear visited hp hset hlog => rwa [hlog]
    | insert k j hp hset hlog =>
        have hij : i ≠ j := by
          rintro rfl
          exact hI.2 t .stored (by rw [hp]; rfl)
        rw [hlog]
        simp [hout, hij]
    | exchange d j hp hset hlog =>
        rw [hlog]
        split <;> simp [hout]
    | onConnected k j hp hset hlog | onDisconnected d j hp hset hlog | erase d j hp hset hlog =>
        rw [hlog]
        simp [hout]
  · rwa [hlog]

/-- The session a connected flag is down for after it was added has been disconnected. -/
theorem LifeOf.disconnected {c : ServiceConf} {i : Sid} {l : Life} {e : Ending}
    (h : LifeOf c i l e) (hadd : .call .addSession i ∈ c.sh.log)
    (hdead : c.sh.connected i = false) : .call .disconnect i ∈ c.sh.log := by
  have hstored : l.stored = true := by
    rw [h.mem] at hadd
    cases l with
    | joining t k =>
        cases k with
        | accepted | stored => nomatch hadd
        | added => rfl
    | up => rfl
    | unborn | refused => nomatch hadd
  rw [h.mem]
  have hconn := h.connected
  rw [hdead, hstored, Bool.true_and] at hconn
  simpa [made] using hconn

/-- The accept handler refuses the session: its way in is over, and it was not added. -/
theorem arrived_of_refusal {limit : Int} {c c' : ServiceConf} {t : Tid} {i : Sid}
    (hlife : ∃ l e, LifeOf c i l e) (hp : c.pc t = .disconnecting .accept i .exchange)
    (h : c.next limit (.run t) = some c') :
    Arrived c' i ∧ .call .addSession i ∉ c'.sh.log := by
  obtain ⟨l, e, hl⟩ := hlife
  obtain rfl := hl.joining_of_pc (t := t) (k := .accepted) (by rw [hp]; rfl)
  have hdead : c.sh.connected i = false := hl.connected
  have hout : ServiceEvent.call .addSession i ∉ c.sh.log := by
    rw [hl.mem]
    exact Bool.false_ne_true
  simp only [ServiceConf.next, hp, serviceStep, disconnectStep, hdead, Bool.false_eq_true, if_false,
    Option.map_some, Option.some.injEq] at h
  subst h
  refine ⟨⟨?_, fun u k => ?_⟩, by simp [hout]⟩
  · refine Nat.lt_of_not_le fun hle => ?_
    cases hl.born.mpr hle
  · by_cases hu : u = t
    · subst hu
      rw [ServiceConf.set_pc_self]
      exact (Option.some_ne_none (i, k)).symm
    · rw [ServiceConf.set_pc_of_ne _ _ _ hu, ne_eq, hl.joins u k]
      rintro ⟨⟩
      exact hu rfl

theorem Answered.step {limit : Int} {c c' : ServiceConf} {l : ServiceLabel} (hI : Answered c)
    (hlife : ∀ i, ∃ l e, LifeOf c i l e) (hok : Timely c l) (h : c.next limit l = some c') :
    Answered c' := by
  intro i hi
  have hpre := log_prefix_of_next h
  have hold : .ignored i ∈ c.sh.log →
      .call .disconnect i ∈ c'.sh.log ∨ (Arrived c' i ∧ .call .addSession i ∉ c'.sh.log) := by
    intro hi
    rcases hI i hi with hd | ⟨ha, hout⟩
    · exact .inl (hpre.subset hd)
    · exact .inr ⟨ha.step h, ha.not_added h hout⟩
  rcases serviceMove_of_next h with ⟨t, rfl, hm⟩ | ⟨-, hlog⟩
  · cases hm with
    | quiet hset hlog | clear visited hp hset hlog => exact hold (by rwa [hlog] at hi)
    | insert k j hp hset hlog | onConnected k j hp hset hlog | onDisconnected d j hp hset hlog
    | erase d j hp hset hlog => exact hold (by simpa [hlog] using hi)
    | exchange d j hp hset hlog =>
        by_cases hdead : c.sh.connected j = true
        · exact hold (by simpa [hlog, hdead] using hi)
        · rw [Bool.not_eq_true] at hdead
          simp only [hlog, hdead, Bool.false_eq_true, if_false, List.mem_append,
            List.mem_singleton, ServiceEvent.ignored.injEq] at hi
          rcases hi with hi | rfl
          · exact hold hi
          -- this is the `Disconnect` that is ignored
          · have hadded : .call .addSession i ∈ c.sh.log → .call .disconnect i ∈ c'.sh.log := by
              intro hadd
              obtain ⟨l, e, hl⟩ := hlife i
              exact hpre.subset (hl.disconnected hadd hdead)
            simp only [Timely, hp] at hok
            rcases hok with rfl | hadd | ha
            · exact .inr (arrived_of_refusal (hlife i) hp h)
            · exact .inl (hadded hadd)
            · by_cases hadd : .call .addSession i ∈ c.sh.log
              · exact .inl (hadded hadd)
              · exact .inr ⟨ha.step h, ha.not_added h hadd⟩
  · exact hold (by rwa [hlog] at hi)

/-- The thread is inside `Disconnect` of the session `i`. -/
def ServicePc.insideDisconnect (i : Sid) : ServicePc → Bool
  | .disconnecting _ j _ => j == i
  | _ => false

theorem ServicePc.insideDisconnect_of_leaves {p : ServicePc} {i : Sid} {k : Leaving}
    (h : p.leaves = some (i, k)) : p.insideDisconnect i = true := by
  unfold ServicePc.leaves at h
  split at h
  · cases h
    exact beq_self_eq_true i
  · cases h
    exact beq_self_eq_true i
  · cases h
    exact beq_self_eq_true i
  · cases h
    exact beq_self_eq_true i
  · nomatch h

/-- **Once every `Disconnect` of an added session has returned**, at least one having been made,
    the session was released once and is not in the set. -/
theorem released_of_returned {c : ServiceConf} {i : Sid} (hlife : ∃ l e, LifeOf c i l e)
    (hset : Settled c) (hanswered : Answered c) (hadd : .call .addSession i ∈ c.sh.log)
    (hcalled : .call .disconnect i ∈ c.sh.log ∨ .ignored i ∈ c.sh.log)
    (hreturned : ∀ t, (c.pc t).insideDisconnect i = false) :
    c.sh.log.count (.call .releaseSession i) = 1 ∧ i ∉ c.sh.sessions := by
  obtain ⟨l, e, hl⟩ := hlife
  have hdisc : .call .disconnect i ∈ c.sh.log := by
    rcases hcalled with hd | hi
    · exact hd
    · rcases hanswered i hi with hd | ⟨-, hout⟩
      · exact hd
      · exact absurd hadd hout
  have hreleased : e = .released := by
    cases e with
    | none =>
        rw [hl.mem] at hdisc
        nomatch hdisc
    | leaving t k =>
        have ht := (hl.leaves t k).mpr rfl
        have hinside := ServicePc.insideDisconnect_of_leaves ht
        rw [hreturned t] at hinside
        nomatch hinside
    | released => rfl
  subst hreleased
  refine ⟨hl.calls _, fun hi => ((hset.mem i).mp hi).2 ?_⟩
  rw [hl.mem]
  rfl

end ServerCore
