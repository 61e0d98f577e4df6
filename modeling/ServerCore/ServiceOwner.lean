/-
  File:      ServerCore/ServiceOwner.lean
  Subject:   Who keeps a session alive while a receive of it is outstanding.

  The receive handler captures `this`, the write handler a `shared_ptr`. A connected session that
  was added is in `_sessions` (`Members`), whoever disconnects and whatever `CloseService` visits;
  so a receive is issued on a session the set owns. `Disconnect` takes the session out of the set
  and leaves the receive behind: from there on only other code's reference keeps the session
  (`receive_owner`).
-/
import ServerCore.ServiceAccept
import ServerCore.ServiceSet

namespace ServerCore

open Trans

/-! ## 1. A connected session is in the set -/

/-- The session was added and is not connected any more. -/
def ServiceState.dead (s : ServiceState) (i : Sid) : Prop :=
  .call .addSession i ∈ s.log ∧ s.connected i = false

/-- What `CloseService` leaves behind: the sessions it has visited are not connected, and none is
    left out when it comes to `clear`. -/
def ServicePc.leavesDead (s : ServiceState) : ServicePc → Prop
  | .closing visited p =>
      (∀ j ∈ visited, s.dead j) ∧ (p = .clear → ∀ j ∈ s.sessions, j ∈ visited)
  | .disconnecting (.close visited) i p =>
      ∀ j ∈ visited, s.dead j ∨ (j = i ∧ p = .exchange ∧ .call .addSession j ∈ s.log)
  | _ => True

/-- **The set against `_connected`**, on any run. -/
structure Members (c : ServiceConf) : Prop where
  added : ∀ i ∈ c.sh.sessions, .call .addSession i ∈ c.sh.log
  kept : ∀ i, .call .addSession i ∈ c.sh.log → c.sh.connected i = true → i ∈ c.sh.sessions
  visited : ∀ t, (c.pc t).leavesDead c.sh

/-- Who changes `_connected` of a session. -/
theorem serviceStep_connected {limit : Int} {t : Tid} {s s' : ServiceState} {p q : ServicePc}
    (h : serviceStep limit t s p = some (s', q)) :
    s'.connected = s.connected ∨
      (∃ k i, p = .connecting k i .store ∧ s'.connected = Function.update s.connected i true) ∨
      ∃ d i, p = .disconnecting d i .exchange ∧
        s'.connected = Function.update s.connected i false := by
  cases serviceAction_of_step h with
  | store k i => exact .inr (.inl ⟨k, i, rfl, rfl⟩)
  | exchange d i => exact .inr (.inr ⟨d, i, rfl, rfl⟩)
  | exchangeIgnored d i => exact .inr (.inr ⟨d, i, rfl, rfl⟩)
  | _ => exact .inl rfl

/-- **A session that was added is never connected again.** -/
theorem dead_step {limit : Int} {c c' : ServiceConf} {l : ServiceLabel} {i : Sid}
    (hlife : ∃ l e, LifeOf c i l e) (h : c.next limit l = some c') (hdead : c.sh.dead i) :
    c'.sh.dead i := by
  refine ⟨(log_prefix_of_next h).subset hdead.1, ?_⟩
  cases serviceStepped_of_next h with
  | acceptError | accept | connect | receive | write | hold | drop | send | disconnect
  | closeService | visit => exact hdead.2
  | run t sh p hs =>
      rw [ServiceConf.set_sh]
      rcases serviceStep_connected hs with hsame | ⟨k, j, hp, hstore⟩ | ⟨d, j, hp, hexch⟩
      · rw [hsame]
        exact hdead.2
      · rw [hstore]
        by_cases hij : i = j
        · subst hij
          obtain ⟨l, e, hl⟩ := hlife
          obtain rfl := hl.joining_of_pc (t := t) (k := .accepted) (by rw [hp]; rfl)
          nomatch (hl.mem _).mp hdead.1
        · rw [Function.update_of_ne hij]
          exact hdead.2
      · rw [hexch]
        by_cases hij : i = j
        · subst hij
          exact Function.update_self _ _ _
        · rw [Function.update_of_ne hij]
          exact hdead.2

/-- A thread changes the set inside the lock. -/
theorem ServiceMove.set_or_held {s s' : ServiceState} {p : ServicePc} (h : ServiceMove s s' p) :
    s'.sessions = s.sessions ∨ 0 < p.held := by
  cases h with
  | quiet hset hlog | onConnected _ _ _ hset hlog | exchange _ _ _ hset hlog
  | onDisconnected _ _ _ hset hlog => exact .inl hset
  | insert k i hp =>
      subst hp
      exact .inr Nat.one_pos
  | erase d i hp =>
      subst hp
      exact .inr (Nat.succ_pos _)
  | clear visited hp =>
      subst hp
      exact .inr Nat.one_pos

/-- What a thread has left dead stays so while others move. -/
theorem leavesDead_of_other {s s' : ServiceState} {p : ServicePc} (hI : p.leavesDead s)
    (hdead : ∀ j, s.dead j → s'.dead j) (hlog : s.log <+: s'.log)
    (hset : s'.sessions = s.sessions ∨ p.held = 0) : p.leavesDead s' := by
  unfold ServicePc.leavesDead at hI ⊢
  split
  · rename_i visited p
    refine ⟨fun j hj => hdead j (hI.1 j hj), ?_⟩
    rintro rfl j hj
    rcases hset with hset | hheld
    · rw [hset] at hj
      exact hI.2 rfl j hj
    · nomatch hheld
  · intro j hj
    rcases hI j hj with hd | ⟨rfl, hp, hadd⟩
    · exact .inl (hdead j hd)
    · exact .inr ⟨rfl, hp, hlog.subset hadd⟩
  · trivial

theorem leavesDead_return {s : ServiceState} {d : DisconnectCaller} {i : Sid} {p : DisconnectPc}
    (hI : (ServicePc.disconnecting d i p).leavesDead s) (hp : p ≠ .exchange) :
    d.return.leavesDead s := by
  cases d with
  | accept | receive | write | other => trivial
  | close visited =>
      refine ⟨fun j hj => ?_, nofun⟩
      rcases hI j hj with hd | ⟨-, he, -⟩
      · exact hd
      · exact absurd he hp

/-- Past its exchange `Disconnect` leaves dead what it found dead. -/
theorem leavesDead_disconnecting {s s' : ServiceState} {d : DisconnectCaller} {i : Sid}
    {p p' : DisconnectPc} (hI : (ServicePc.disconnecting d i p).leavesDead s)
    (hdead : ∀ j, s.dead j → s'.dead j) (hp : p ≠ .exchange) :
    (ServicePc.disconnecting d i p').leavesDead s' := by
  cases d with
  | accept | receive | write | other => trivial
  | close visited =>
      intro j hj
      rcases hI j hj with hd | ⟨-, he, -⟩
      · exact .inl (hdead j hd)
      · exact absurd he hp

/-- After the exchange the session itself is dead, too. -/
theorem leavesDead_exchange {s s' : ServiceState} {d : DisconnectCaller} {i : Sid}
    (hI : (ServicePc.disconnecting d i .exchange).leavesDead s)
    (hdead : ∀ j, s.dead j → s'.dead j) (hlog : s.log <+: s'.log)
    (hoff : s'.connected i = false) : (ServicePc.disconnecting d i .close).leavesDead s' := by
  cases d with
  | accept | receive | write | other => trivial
  | close visited =>
      intro j hj
      rcases hI j hj with hd | ⟨rfl, -, hadd⟩
      · exact .inl (hdead j hd)
      · exact .inl ⟨hlog.subset hadd, hoff⟩

/-- What the moving thread leaves dead. -/
theorem leavesDead_of_step {limit : Int} {t : Tid} {s s' : ServiceState} {p q : ServicePc}
    (h : serviceStep limit t s p = some (s', q)) (hI : p.leavesDead s)
    (hdead : ∀ j, s.dead j → s'.dead j) (hlog : s.log <+: s'.log) : q.leavesDead s' := by
  have hreturn : ∀ r : RecvCaller, r.return.leavesDead s' := by
    rintro ((_ | _) | _) <;> trivial
  cases serviceAction_of_step h with
  | registerDead r | issueReceive r => exact hreturn r
  | exchange d i => exact leavesDead_exchange hI hdead hlog (Function.update_self _ _ _)
  | exchangeIgnored d i =>
      exact leavesDead_return
        (leavesDead_exchange hI hdead hlog (Function.update_self _ _ _)) (by simp)
  | close d | onDisconnected d | disconnectAcquire d | erase d | countDown d =>
      exact leavesDead_disconnecting hI hdead (by simp)
  | disconnectRelease d =>
      exact leavesDead_return (p := .release) (leavesDead_disconnecting hI hdead (by simp))
        (by simp)
  | closeAcquire => exact ⟨List.forall_mem_nil _, fun he => absurd he (by simp)⟩
  | sweep visited hv hall => exact ⟨fun j hj => hdead j (hI.1 j hj), fun _ => hall⟩
  | clear => exact ⟨fun j hj => hdead j (hI.1 j hj), fun he => absurd he (by simp)⟩
  | _ => trivial

/-- What is in the set after a step was added. -/
theorem ServiceMove.added {s s' : ServiceState} {p : ServicePc} (h : ServiceMove s s' p)
    (hadded : ∀ i ∈ s.sessions, .call .addSession i ∈ s.log) :
    ∀ i ∈ s'.sessions, .call .addSession i ∈ s'.log := by
  intro i hi
  have hpre := h.log_prefix
  cases h with
  | quiet hset hlog | onConnected _ _ _ hset hlog | exchange _ _ _ hset hlog
  | onDisconnected _ _ _ hset hlog => exact hpre.subset (hadded i (hset ▸ hi))
  | insert k j hp hset hlog =>
      rw [hset, Finset.mem_insert] at hi
      rcases hi with rfl | hi
      · rw [hlog]
        exact List.mem_append_right _ (List.mem_singleton_self _)
      · exact hpre.subset (hadded i hi)
  | erase d j hp hset hlog =>
      rw [hset] at hi
      exact hpre.subset (hadded i (Finset.mem_of_mem_erase hi))
  | clear visited hp hset hlog =>
      rw [hset] at hi
      nomatch hi

/-- A session that is connected after a step was so before, or the step connects it. -/
theorem serviceStep_wasConnected {limit : Int} {t : Tid} {s s' : ServiceState} {p q : ServicePc}
    {i : Sid} (h : serviceStep limit t s p = some (s', q)) (hconn : s'.connected i = true) :
    s.connected i = true ∨ ∃ k, p = .connecting k i .store := by
  rcases serviceStep_connected h with heq | ⟨k, j, hp, hstore⟩ | ⟨d, j, hp, hexch⟩
  · exact .inl (heq ▸ hconn)
  · by_cases hij : i = j
    · subst hij
      exact .inr ⟨k, hp⟩
    · rw [hstore, Function.update_of_ne hij] at hconn
      exact .inl hconn
  · by_cases hij : i = j
    · subst hij
      rw [hexch, Function.update_self] at hconn
      nomatch hconn
    · rw [hexch, Function.update_of_ne hij] at hconn
      exact .inl hconn

/-- What is added and connected after a thread's step is in the set. -/
theorem Members.kept_run {limit : Int} {c : ServiceConf} (hI : Members c) {i : Sid}
    (hlife : ∃ l e, LifeOf c i l e) {t : Tid} {sh : ServiceState} {p : ServicePc}
    (hs : serviceStep limit t c.sh (c.pc t) = some (sh, p))
    (hadd : .call .addSession i ∈ sh.log) (hconn : sh.connected i = true) : i ∈ sh.sessions := by
  have hwas := serviceStep_wasConnected hs hconn
  obtain ⟨l, e, hl⟩ := hlife
  have hin : .call .addSession i ∈ c.sh.log → i ∈ c.sh.sessions := by
    intro hadd
    rcases hwas with hconn | ⟨k, hp⟩
    · exact hI.kept i hadd hconn
    · obtain rfl := hl.joining_of_pc (t := t) (k := .accepted) (by rw [hp]; rfl)
      nomatch (hl.mem _).mp hadd
  cases serviceStep_move hs with
  | quiet hset hlog =>
      rw [hset]
      exact hin (hlog ▸ hadd)
  | insert k j hp hset hlog =>
      rw [hset, Finset.mem_insert]
      by_cases hij : i = j
      · exact .inl hij
      · exact .inr (hin (by simpa [hlog, hij] using hadd))
  | onConnected k j hp hset hlog | onDisconnected d j hp hset hlog =>
      rw [hset]
      exact hin (by simpa [hlog] using hadd)
  | exchange d j hp hset hlog =>
      rw [hset]
      refine hin ?_
      rw [hlog] at hadd
      split at hadd <;> simpa using hadd
  | erase d j hp hset hlog =>
      rw [hset, Finset.mem_erase]
      refine ⟨?_, hin (by simpa [hlog] using hadd)⟩
      rintro rfl
      obtain rfl := hl.leaving_of_pc (t := t) (k := .leaving) (by rw [hp]; rfl)
      rcases hwas with hconn | ⟨k, hp'⟩
      · rw [hl.connected] at hconn
        nomatch (Bool.and_eq_true_iff.mp hconn).2
      · rw [hp] at hp'
        nomatch hp'
  -- all that `clear` takes away has been visited, and is not connected
  | clear visited hp hset hlog =>
      have hvisited := hI.visited t
      rw [hp] at hvisited
      have hoff := (hvisited.1 i (hvisited.2 rfl i (hin (hlog ▸ hadd)))).2
      rcases hwas with hconn | ⟨k, hp'⟩
      · rw [hoff] at hconn
        nomatch hconn
      · rw [hp] at hp'
        nomatch hp'

theorem Members.step {limit : Int} {c c' : ServiceConf} {l : ServiceLabel} (hI : Members c)
    (hlife : ∀ i, ∃ l e, LifeOf c i l e) (hlock : ServiceLock c)
    (h : c.next limit l = some c') : Members c' := by
  have hpre := log_prefix_of_next h
  have hdead : ∀ j, c.sh.dead j → c'.sh.dead j := fun j => dead_step (hlife j) h
  -- a label that leaves the set, the log and `_connected` alone
  have hsame : ∀ {sh : ServiceState} {t : Tid} {p : ServicePc}, sh.sessions = c.sh.sessions →
      sh.log = c.sh.log → sh.connected = c.sh.connected → p.leavesDead sh →
      Members (c.set t sh p) := by
    intro sh t p hset hlog hconn hp
    refine ⟨by rw [ServiceConf.set_sh, hset, hlog]; exact hI.added,
      by rw [ServiceConf.set_sh, hset, hlog, hconn]; exact hI.kept, fun u => ?_⟩
    by_cases hu : u = t
    · subst hu
      rw [ServiceConf.set_pc_self]
      exact hp
    · rw [c.set_pc_of_ne sh p hu]
      refine leavesDead_of_other (hI.visited u) (fun j hj => ?_) (by rw [ServiceConf.set_sh, hlog])
        (.inl hset)
      exact ⟨by rw [ServiceConf.set_sh, hlog]; exact hj.1,
        by rw [ServiceConf.set_sh, hconn]; exact hj.2⟩
  cases serviceStepped_of_next h with
  | acceptError t ha hidle | accept t ha hidle | connect t hidle | receive t i o hr hidle
  | write t i o hw hidle => exact hsame rfl rfl rfl trivial
  | hold i source hs => exact ⟨hI.added, hI.kept, hI.visited⟩
  | drop i hh => exact ⟨hI.added, hI.kept, hI.visited⟩
  | send t i hh hidle => exact hsame rfl rfl rfl trivial
  | disconnect t i hh hidle => exact hsame rfl rfl rfl trivial
  | closeService t hidle => exact hsame rfl rfl rfl ⟨nofun, nofun⟩
  | visit t i visited hp hv hi hnew =>
      refine hsame rfl rfl rfl fun j hj => ?_
      have hvisited := hI.visited t
      rw [hp] at hvisited
      rcases List.mem_cons.mp hj with rfl | hj
      · exact .inr ⟨rfl, rfl, hI.added _ hi⟩
      · exact .inl (hvisited.1 j hj)
  | run t sh p hs =>
      have hmove := serviceStep_move hs
      refine ⟨hmove.added hI.added, fun i hadd hconn => hI.kept_run (hlife i) hs hadd hconn,
        fun u => ?_⟩
      by_cases hu : u = t
      · subst hu
        rw [ServiceConf.set_pc_self]
        exact leavesDead_of_step hs (hI.visited u) hdead hpre
      · rw [c.set_pc_of_ne sh p hu]
        refine leavesDead_of_other (hI.visited u) hdead hpre ?_
        rcases hmove.set_or_held with hset | hheld
        · exact .inl hset
        · refine .inr (Nat.eq_zero_of_not_pos fun hpos => ?_)
          exact hu (hlock.unique hpos hheld)

theorem members_started (server : Bool) : Members (.started server) where
  added i hi := nomatch hi
  kept i hadd := nomatch hadd
  visited t := by
    unfold ServiceConf.started
    dsimp only
    split <;> trivial

/-- **The set against `_connected`**, on every run. -/
theorem members_of_reach {limit : Int} {ok : ServiceConf → ServiceLabel → Prop} {server : Bool}
    {c : ServiceConf} (hr : Reach (ServiceConf.next limit) ok (.started server) c) :
    Members c := by
  refine (hr.invariant
    (I := fun c => (∀ i, ∃ l e, LifeOf c i l e) ∧ ServiceLock c ∧ Members c)
    ⟨fun i => ⟨_, _, lifeOf_started server i⟩, serviceLock_started server,
      members_started server⟩ ?_).2.2
  rintro c c' l ⟨hlife, hlock, hI⟩ - h
  refine ⟨fun i => ?_, hlock.step h, hI.step hlife hlock h⟩
  obtain ⟨l, e, hl⟩ := hlife i
  exact hl.step h

/-! ## 2. A receive is issued on a session that was added -/

/-- The thread is about to issue a receive of the session `i`, or handles one. -/
def ServicePc.listens (i : Sid) : ServicePc → Bool
  | .registering _ j _ | .received j _ => j == i
  | _ => false

/-- The thread is at the call of `async_read_some`. -/
def ServicePc.issues (i : Sid) : ServicePc → Bool
  | .registering _ j .issue => j == i
  | _ => false

/-- A receive of the session is outstanding, or about to be issued. -/
def ReceivesFor (c : ServiceConf) (i : Sid) : Prop :=
  0 < c.sh.receives i ∨ ∃ t, (c.pc t).issues i = true

/-- Where a receive comes from: it is issued where the session was found connected, by the handler
    of the one before or by `ProcessConnect` past `AddSession`. -/
structure ListenMove (i : Sid) (s s' : ServiceState) (p q : ServicePc) : Prop where
  holders : s'.holders = s.holders
  receives : 0 < s'.receives i → 0 < s.receives i ∨ p.issues i = true
  issue : q.issues i = true → p.listens i = true ∧ s.connected i = true
  thread : q.listens i = true → p.listens i = true ∨ p.joins = some (i, .added)

theorem ServicePc.listens_of_issues {p : ServicePc} {i : Sid} (h : p.issues i = true) :
    p.listens i = true := by
  unfold ServicePc.issues at h
  split at h
  · exact h
  · nomatch h

/-- A step after which the thread does not listen. -/
theorem ListenMove.away {i : Sid} {s s' : ServiceState} {p q : ServicePc}
    (hholders : s'.holders = s.holders) (hreceives : s'.receives = s.receives)
    (hq : q.listens i = false) : ListenMove i s s' p q where
  holders := hholders
  receives h := .inl (by rwa [hreceives] at h)
  issue h := by
    rw [ServicePc.listens_of_issues h] at hq
    nomatch hq
  thread h := by
    rw [h] at hq
    nomatch hq

theorem ConnectCaller.listens_return (k : ConnectCaller) (i : Sid) :
    k.return.listens i = false := by
  cases k <;> rfl

theorem RecvCaller.listens_return (r : RecvCaller) (i : Sid) : r.return.listens i = false := by
  rcases r with (_ | _) | _ <;> rfl

theorem DisconnectCaller.listens_return (d : DisconnectCaller) (i : Sid) :
    d.return.listens i = false := by
  cases d <;> rfl

theorem serviceStep_listens {limit : Int} {t : Tid} {s s' : ServiceState} {p q : ServicePc}
    (i : Sid) (h : serviceStep limit t s p = some (s', q)) : ListenMove i s s' p q := by
  cases serviceAction_of_step h with
  | receivedAgain j => exact ⟨rfl, .inl, fun hq => absurd hq Bool.false_ne_true, .inl⟩
  | onConnected k j =>
      refine ⟨rfl, .inl, fun hq => absurd hq Bool.false_ne_true, fun hq => .inr ?_⟩
      rw [← eq_of_beq (show (j == i) = true from hq)]
      rfl
  | register r j hconn =>
      refine ⟨rfl, .inl, fun hq => ⟨hq, ?_⟩, .inl⟩
      obtain rfl : j = i := eq_of_beq hq
      exact hconn
  | registerDead r j => exact .away rfl rfl (r.listens_return i)
  | issueReceive r j =>
      have hreturn := r.listens_return i
      refine ⟨rfl, fun hr => ?_, fun hq => ?_, fun hq => ?_⟩
      · by_cases hij : i = j
        · exact .inr (by simp [ServicePc.issues, hij])
        · exact .inl (by simpa only [Function.update_of_ne hij] using hr)
      · cases hreturn.symm.trans (ServicePc.listens_of_issues hq)
      · cases hreturn.symm.trans hq
  | exchangeIgnored d | disconnectRelease d => exact .away rfl rfl (d.listens_return i)
  | _ => exact .away rfl rfl rfl

/-- A receive of the session is outstanding, or a thread listens. -/
def Listening (c : ServiceConf) (i : Sid) : Prop :=
  0 < c.sh.receives i ∨ ∃ t, (c.pc t).listens i = true

theorem ReceivesFor.listening {c : ServiceConf} {i : Sid} (h : ReceivesFor c i) :
    Listening c i := by
  rcases h with hr | ⟨t, ht⟩
  · exact .inl hr
  · exact .inr ⟨t, ServicePc.listens_of_issues ht⟩

/-- Who listens after one thread moved listened before, or the thread does. -/
theorem Listening.of_set {c : ServiceConf} {i : Sid} {t : Tid} {sh : ServiceState}
    {p : ServicePc} (h : Listening (c.set t sh p) i)
    (hreceives : 0 < sh.receives i → Listening c i) :
    Listening c i ∨ p.listens i = true := by
  rcases h with hr | ⟨u, hu⟩
  · exact .inl (hreceives hr)
  · exact (ServiceConf.of_pc_set (Q := fun p => p.listens i = true) hu).imp_left
      fun hu => .inr ⟨u, hu⟩

/-- **Who listens after a step listened before, or the session was added.** -/
theorem listening_step {limit : Int} {c c' : ServiceConf} {l : ServiceLabel} {i : Sid}
    (hI : Listening c i → .call .addSession i ∈ c.sh.log) (hlife : ∃ l e, LifeOf c i l e)
    (h : c.next limit l = some c') (hlisten : Listening c' i) :
    .call .addSession i ∈ c.sh.log := by
  cases serviceStepped_of_next h with
  | acceptError t ha hidle | accept t ha hidle | connect t hidle | write t j o hw hidle
  | send t j hh hidle | disconnect t j hh hidle | closeService t hidle
  | visit t j visited hp hv hj hnew =>
      rcases hlisten.of_set .inl with hl | hp
      · exact hI hl
      · nomatch hp
  | receive t j o hr hidle =>
      rcases hlisten.of_set (fun h => .inl (pos_of_update_pred h)) with hl | hp
      · exact hI hl
      · obtain rfl : j = i := eq_of_beq hp
        exact hI (.inl hr)
  | hold j source hs => exact hI hlisten
  | drop j hh => exact hI hlisten
  | run t sh p hs =>
      have hmove := serviceStep_listens i hs
      rcases hlisten.of_set (fun h => (hmove.receives h).elim .inl fun hp =>
        .inr ⟨t, ServicePc.listens_of_issues hp⟩) with hl | hp
      · exact hI hl
      · rcases hmove.thread hp with hp | hjoins
        · exact hI (.inr ⟨t, hp⟩)
        · obtain ⟨l, e, hl⟩ := hlife
          obtain rfl := hl.joining_of_pc hjoins
          rw [hl.mem]
          rfl

/-! ## 3. The law -/

/-- The thread holds a `shared_ptr` to the session: the accept handler and the write handler
    captured one, a caller of `Send` or `Disconnect` has one, and so has a thread inside
    `AddSession` or `ReleaseSession`. -/
def ServicePc.owns (i : Sid) : ServicePc → Bool
  | .acceptTest j | .connecting .accept j _ | .registering (.processConnect .accept) j _
  | .disconnecting .accept j _ | .disconnecting .write j _ | .disconnecting .other j _
  | .sending j _ | .written j _ => j == i
  | .connecting .connect j .acquire | .connecting .connect j .insert
  | .connecting .connect j .count | .connecting .connect j .release => j == i
  | .disconnecting _ j .acquire | .disconnecting _ j .erase | .disconnecting _ j .count
  | .disconnecting _ j .release => j == i
  | _ => false

/-- **The session has an owner.** -/
def Owned (c : ServiceConf) (i : Sid) : Prop :=
  i ∈ c.sh.sessions ∨ 0 < c.sh.writes i ∨ 0 < c.sh.holders i ∨ ∃ t, (c.pc t).owns i = true

/-- **A step that keeps sessions for their receives**: where a session leaves the set with a
    receive outstanding other code has a reference to it, and does not drop its last one while
    the receive is outstanding. -/
def KeepsReceiving (c : ServiceConf) : ServiceLabel → Prop
  | .run t => match c.pc t with
    | .disconnecting _ i .erase => ReceivesFor c i → 0 < c.sh.holders i
    | .closing _ .clear => ∀ i ∈ c.sh.sessions, ReceivesFor c i → 0 < c.sh.holders i
    | _ => True
  | .drop i => ReceivesFor c i → i ∈ c.sh.sessions ∨ 1 < c.sh.holders i
  | _ => True

/-- The set or other code keeps every session with a receive outstanding. -/
structure ReceiveKept (c : ServiceConf) : Prop where
  life : ∀ i, ∃ l e, LifeOf c i l e
  lock : ServiceLock c
  members : Members c
  listening : ∀ i, Listening c i → .call .addSession i ∈ c.sh.log
  kept : ∀ i, ReceivesFor c i → i ∈ c.sh.sessions ∨ 0 < c.sh.holders i

/-- A receive outstanding after one thread moved. -/
theorem ReceivesFor.of_set {c : ServiceConf} {i : Sid} {t : Tid} {sh : ServiceState}
    {p : ServicePc} (h : ReceivesFor (c.set t sh p) i)
    (hreceives : 0 < sh.receives i → ReceivesFor c i) : ReceivesFor c i ∨ p.issues i = true := by
  rcases h with hr | ⟨u, hu⟩
  · exact .inl (hreceives hr)
  · exact (ServiceConf.of_pc_set (Q := fun p => p.issues i = true) hu).imp_left
      fun hu => .inr ⟨u, hu⟩

theorem pos_of_update_succ_of_pos {f : Sid → Nat} {i j : Sid} (h : 0 < f i) :
    0 < Function.update f j (f j + 1) i := by
  by_cases hij : i = j
  · subst hij
    rw [Function.update_self]
    exact Nat.succ_pos _
  · rwa [Function.update_of_ne hij]

/-- A session leaves the set by `ReleaseSession` or by `clear`. -/
theorem ServiceMove.stays {s s' : ServiceState} {p : ServicePc} (h : ServiceMove s s' p) {i : Sid}
    (hi : i ∈ s.sessions) :
    i ∈ s'.sessions ∨ (∃ d, p = .disconnecting d i .erase) ∨ ∃ visited, p = .closing visited .clear
    := by
  cases h with
  | quiet hset hlog | onConnected _ _ _ hset hlog | exchange _ _ _ hset hlog
  | onDisconnected _ _ _ hset hlog => exact .inl (hset ▸ hi)
  | insert k j hp hset =>
      rw [hset]
      exact .inl (Finset.mem_insert_of_mem hi)
  | erase d j hp hset =>
      by_cases hij : i = j
      · subst hij
        exact .inr (.inl ⟨d, hp⟩)
      · rw [hset]
        exact .inl (Finset.mem_erase.mpr ⟨hij, hi⟩)
  | clear visited hp => exact .inr (.inr ⟨visited, hp⟩)

theorem receiveKept_step {limit : Int} {c c' : ServiceConf} {l : ServiceLabel}
    (hI : ReceiveKept c) (hok : KeepsReceiving c l) (h : c.next limit l = some c') {i : Sid}
    (hr : ReceivesFor c' i) : i ∈ c'.sh.sessions ∨ 0 < c'.sh.holders i := by
  cases serviceStepped_of_next h with
  | acceptError t ha hidle | accept t ha hidle | connect t hidle | write t j o hw hidle
  | send t j hh hidle | disconnect t j hh hidle | closeService t hidle
  | visit t j visited hp hv hj hnew =>
      rcases hr.of_set .inl with hr | hp
      · exact hI.kept i hr
      · nomatch hp
  | receive t j o hrecv hidle =>
      rcases hr.of_set (fun h => .inl (pos_of_update_pred h)) with hr | hp
      · exact hI.kept i hr
      · nomatch hp
  | hold j source hs =>
      rcases hI.kept i hr with hi | hh
      · exact .inl hi
      · exact .inr (pos_of_update_succ_of_pos hh)
  | drop j hh =>
      dsimp only
      by_cases hij : i = j
      · subst hij
        rw [Function.update_self]
        rcases hok hr with hi | hmore
        · exact .inl hi
        · exact .inr (Nat.sub_pos_of_lt hmore)
      · rw [Function.update_of_ne hij]
        exact hI.kept i hr
  | run t sh p hs =>
      have hmove := serviceStep_listens i hs
      have hstay : i ∈ c.sh.sessions → ReceivesFor c i ∨ (c.pc t).listens i = true →
          i ∈ sh.sessions ∨ 0 < c.sh.holders i := by
        intro hi hwhy
        rcases (serviceStep_move hs).stays hi with hi | ⟨d, hp⟩ | ⟨visited, hp⟩
        · exact .inl hi
        · rcases hwhy with hr | hlisten
          · simp only [KeepsReceiving, hp] at hok
            exact .inr (hok hr)
          · rw [hp] at hlisten
            nomatch hlisten
        · rcases hwhy with hr | hlisten
          · simp only [KeepsReceiving, hp] at hok
            exact .inr (hok i hi hr)
          · rw [hp] at hlisten
            nomatch hlisten
      rw [ServiceConf.set_sh, hmove.holders]
      rcases hr.of_set (fun h => (hmove.receives h).elim .inl fun hp => .inr ⟨t, hp⟩) with hr | hp
      · rcases hI.kept i hr with hi | hh
        · exact hstay hi (.inl hr)
        · exact .inr hh
      -- the receive is issued now, on a session found connected
      · obtain ⟨hlisten, hconn⟩ := hmove.issue hp
        exact hstay (hI.members.kept i (hI.listening i (.inr ⟨t, hlisten⟩)) hconn) (.inr hlisten)

theorem ReceiveKept.step {limit : Int} {c c' : ServiceConf} {l : ServiceLabel}
    (hI : ReceiveKept c) (hok : KeepsReceiving c l) (h : c.next limit l = some c') :
    ReceiveKept c' where
  life i := by
    obtain ⟨l, e, hl⟩ := hI.life i
    exact hl.step h
  lock := hI.lock.step h
  members := hI.members.step hI.life hI.lock h
  listening i hl :=
    (log_prefix_of_next h).subset (listening_step (hI.listening i) (hI.life i) h hl)
  kept _ hr := receiveKept_step hI hok h hr

theorem receiveKept_started (server : Bool) : ReceiveKept (.started server) where
  life i := ⟨_, _, lifeOf_started server i⟩
  lock := serviceLock_started server
  members := members_started server
  listening i hi := by
    rcases hi with hr | ⟨t, ht⟩
    · nomatch hr
    · unfold ServiceConf.started at ht
      dsimp only at ht
      split at ht <;> nomatch ht
  kept i hi := by
    rcases hi with hr | ⟨t, ht⟩
    · nomatch hr
    · unfold ServiceConf.started at ht
      dsimp only at ht
      split at ht <;> nomatch ht

/-- `ReleaseSession` takes away the last owner: two actions later the thread has returned. -/
theorem unowned_of_erase {limit : Int} {c c' : ServiceConf} {t : Tid} {d : DisconnectCaller}
    {i : Sid} (hp : c.pc t = .disconnecting d i .erase) (h : c.next limit (.run t) = some c')
    (hwrites : c.sh.writes i = 0) (hholders : c.sh.holders i = 0)
    (hothers : ∀ u, u ≠ t → (c.pc u).owns i = false) :
    ∃ ls c'', exec (ServiceConf.next limit) always c' ls = some c'' ∧
      c''.sh.receives i = c.sh.receives i ∧ ¬ Owned c'' i := by
  simp only [ServiceConf.next, hp, serviceStep, disconnectStep, Option.map_some,
    Option.some.injEq] at h
  subst h
  refine ⟨[.run t, .run t], _, (exec_cons trivial (ServiceConf.next_set_run rfl) _).trans
    (exec_cons trivial (ServiceConf.next_set_run rfl) _), ?_⟩
  refine ⟨rfl, ?_⟩
  rintro (hi | hw | hh | ⟨u, hu⟩)
  · simp at hi
  · exact absurd hw (by simp [hwrites])
  · exact absurd hh (by simp [hholders])
  · by_cases hut : u = t
    · subst hut
      rw [ServiceConf.set_pc_self] at hu
      cases d <;> cases hu
    · rw [ServiceConf.set_pc_of_ne _ _ _ hut, hothers u hut] at hu
      cases hu

/-- **Who owns a session with a receive outstanding.** On every run that keeps sessions for their
    receives, the set or other code does. Where `ReleaseSession` takes a session away with a
    receive outstanding and no write, no other thread and no other code owns it, the receive is
    left without an owner. -/
theorem receive_owner (limit : Int) (server : Bool) :
    (∀ c, Reach (ServiceConf.next limit) KeepsReceiving (.started server) c →
      ∀ i, 0 < c.sh.receives i → Owned c i) ∧
    ∀ (c c' : ServiceConf) (t : Tid) (d : DisconnectCaller) (i : Sid),
      c.pc t = .disconnecting d i .erase → c.next limit (.run t) = some c' →
      0 < c.sh.receives i → c.sh.writes i = 0 → c.sh.holders i = 0 →
      (∀ u, u ≠ t → (c.pc u).owns i = false) →
      ∃ ls c'', exec (ServiceConf.next limit) always c' ls = some c'' ∧
        0 < c''.sh.receives i ∧ ¬ Owned c'' i := by
  constructor
  · intro c hr i hrecv
    have hI : ReceiveKept c :=
      hr.invariant (receiveKept_started server) fun _ _ _ hI hok h => hI.step hok h
    rcases hI.kept i (.inl hrecv) with hi | hh
    · exact .inl hi
    · exact .inr (.inr (.inl hh))
  · intro c c' t d i hp h hrecv hwrites hholders hothers
    obtain ⟨ls, c'', hls, hsame, howned⟩ := unowned_of_erase hp h hwrites hholders hothers
    exact ⟨ls, c'', hls, by rw [hsame]; exact hrecv, howned⟩

/-- A step that releases no session other code does not hold, and drops no reference. -/
def Guarded (c : ServiceConf) : ServiceLabel → Bool
  | .run t => match c.pc t with
    | .disconnecting _ i .erase => decide (0 < c.sh.holders i)
    | .closing _ .clear => false
    | _ => true
  | .drop _ => false
  | _ => true

theorem keepsReceiving_of_guarded (c : ServiceConf) (l : ServiceLabel)
    (h : Guarded c l = true) : KeepsReceiving c l := by
  cases l with
  | run t =>
      unfold KeepsReceiving
      unfold Guarded at h
      dsimp only at h ⊢
      split
      · rename_i d i hp
        rw [hp] at h
        exact fun _ => of_decide_eq_true h
      · rename_i visited hp
        rw [hp] at h
        nomatch h
      · trivial
  | drop i => nomatch h
  | accept | connect | receive | write | hold | send | disconnect | closeService | visit => trivial

/-- Other code disconnects a client's session and keeps its reference: the receive outstanding has
    an owner, though the set is empty. -/
theorem receive_owner_held :
    ∃ c, Reach (ServiceConf.next 1) KeepsReceiving (.started true) c ∧ c.sh.receives 0 = 1 ∧
      c.sh.sessions = ∅ ∧ Owned c 0 := by
  have hrun : Reach (ServiceConf.next 1) KeepsReceiving (.started true) _ :=
    .mono keepsReceiving_of_guarded (fun _ _ _ h => h)
      (.of_exec (clientRun ++ [.hold 0 .set, .disconnect 1 0] ++ List.replicate 7 (.run 1)) rfl)
  exact ⟨_, hrun, rfl, rfl, (receive_owner 1 true).1 _ hrun 0 Nat.one_pos⟩

/-- A client connects and its receive is outstanding; what is sent to it fails with
    `connection_reset`, and the write handler disconnects the session and returns. -/
def resetRun : List ServiceLabel :=
  clientRun ++ [.hold 0 .set, .send 1 0, .run 1, .run 1, .drop 0,
    .write 2 0 (.failed .connectionReset)] ++ List.replicate 8 (.run 2)

/-- The receive is outstanding, all threads are idle, and nobody owns the session: its aborted
    receive will be delivered to an object that has been destroyed. -/
theorem receive_unowned :
    ∃ c, Reach (ServiceConf.next 1) always (.started true) c ∧ 0 < c.sh.receives 0 ∧
      ¬ Owned c 0 := by
  have hidle : ∀ c : ServiceConf, exec (ServiceConf.next 1) always (.started true) resetRun =
      some c → ∀ t, (c.pc t).owns 0 = false := by
    intro c hc t
    obtain rfl := Option.some.inj hc
    by_cases h0 : t = 0
    · subst h0
      rfl
    · by_cases h1 : t = 1
      · subst h1
        rfl
      · by_cases h2 : t = 2
        · subst h2
          rfl
        · simp [ServiceConf.set_pc_of_ne, ServiceConf.started, h0, h1, h2, ServicePc.owns]
  refine ⟨_, .of_exec resetRun rfl, Nat.one_pos, ?_⟩
  rintro (hi | hw | hh | ⟨t, ht⟩)
  · exact absurd hi (by decide)
  · exact absurd hw (by decide)
  · exact absurd hh (by decide)
  · rw [hidle _ rfl t] at ht
    cases ht

end ServerCore
