/-
  File:      ServerCore/ServiceCount.lean
  Subject:   The sessions of a ServerService that only its own handlers disconnect.

  A handler that disconnects a session was started by a receive or a write of it, and these are
  issued after `AddSession` (`Used`): so every session leaves after it was added, and the set and
  the count agree (`Settled`). The count stays below the limit because one thread at a time is
  between the test in the accept handler and `_sessionCount++` (`RoomKept`).
-/
import ServerCore.ServiceAccept
import ServerCore.ServiceSet

namespace ServerCore

open Trans

/-! ## 1. Runs of handlers -/

/-- Sessions come from accepts, and only receive and write handlers disconnect them. Other code
    may send on the sessions it finds in `_sessions` or in a callback; the factory keeps none. -/
def HandlersOnly (_ : ServiceConf) : ServiceLabel → Prop
  | .connect _ | .disconnect _ _ | .closeService _ | .visit _ _ | .hold _ .factory => False
  | .accept _ _ | .receive _ _ _ | .write _ _ _ | .hold _ .set | .hold _ (.callback _) | .drop _
  | .send _ _ | .run _ => True

instance (c : ServiceConf) : (l : ServiceLabel) → Decidable (HandlersOnly c l)
  | .connect _ | .disconnect _ _ | .closeService _ | .visit _ _ | .hold _ .factory =>
      .isFalse not_false
  | .accept _ _ | .receive _ _ _ | .write _ _ _ | .hold _ .set | .hold _ (.callback _) | .drop _
  | .send _ _ | .run _ => .isTrue trivial

/-- The thread is inside a handler of an accept, a receive or a write, or inside `Send`. -/
def ServicePc.byHandler : ServicePc → Bool
  | .connecting .connect _ _ | .registering (.processConnect .connect) _ _
  | .disconnecting .other _ _ | .disconnecting (.close _) _ _ | .closing _ _ => false
  | _ => true

theorem serviceStep_byHandler {limit : Int} {t : Tid} {s s' : ServiceState} {p q : ServicePc}
    (h : serviceStep limit t s p = some (s', q)) (hp : p.byHandler = true) :
    q.byHandler = true := by
  cases serviceAction_of_step h with
  | store k | connectAcquire k | insert k | countUp k | connectRelease k | onConnected k =>
      cases k with
      | accept => rfl
      | connect => nomatch hp
  | register r | registerDead r | issueReceive r =>
      rcases r with (_ | _) | _
      · rfl
      · nomatch hp
      · rfl
  | exchange d | exchangeIgnored d | close d | onDisconnected d | disconnectAcquire d | erase d
  | countDown d | disconnectRelease d =>
      cases d with
      | accept | receive | write => rfl
      | other | close => nomatch hp
  | closeAcquire | sweep | clear => nomatch hp
  | _ => rfl

/-- In a run of handlers every thread is inside one. -/
def Handlers (c : ServiceConf) : Prop := ∀ t, (c.pc t).byHandler = true

theorem Handlers.step {limit : Int} {c c' : ServiceConf} {l : ServiceLabel} (hI : Handlers c)
    (hok : HandlersOnly c l) (h : c.next limit l = some c') : Handlers c' := by
  cases serviceStepped_of_next h with
  | acceptError | accept | receive | write | send =>
      exact ServiceConf.forall_pc_set (Q := fun p => p.byHandler = true) hI rfl
  | hold | drop => exact hI
  | connect | disconnect | closeService | visit => exact hok.elim
  | run t sh p hs =>
      exact ServiceConf.forall_pc_set (Q := fun p => p.byHandler = true) hI
        (serviceStep_byHandler hs (hI t))

/-! ## 2. A session is used after it was added -/

/-- The thread was started for the session `i` after it was added. -/
def ServicePc.uses (i : Sid) : ServicePc → Bool
  | .registering _ j _ | .received j _ | .sending j _ | .written j _ => j == i
  | .disconnecting .accept _ .exchange => false
  | .disconnecting _ j _ => j == i
  | _ => false

/-- Someone uses the session, or an operation on it will make a thread use it. -/
def Used (c : ServiceConf) (i : Sid) : Prop :=
  0 < c.sh.holders i ∨ 0 < c.sh.receives i ∨ 0 < c.sh.writes i ∨ ∃ t, (c.pc t).uses i = true

/-- Where the use of a session comes from: an earlier one, or `ProcessConnect` past `AddSession`;
    or the accept handler's `Disconnect` found the session connected. -/
structure UseMove (i : Sid) (s s' : ServiceState) (p q : ServicePc) : Prop where
  holders : s'.holders i = s.holders i
  receives : 0 < s'.receives i → 0 < s.receives i ∨ p.uses i = true
  writes : 0 < s'.writes i → 0 < s.writes i ∨ p.uses i = true
  thread : q.uses i = true → p.uses i = true ∨ p.joins = some (i, .added) ∨
    (s.connected i = true ∧ p = .disconnecting .accept i .exchange)

/-- A step that issues nothing. -/
theorem UseMove.quiet {i : Sid} {s s' : ServiceState} {p q : ServicePc}
    (hholders : s'.holders = s.holders) (hreceives : s'.receives = s.receives)
    (hwrites : s'.writes = s.writes)
    (hthread : q.uses i = true → p.uses i = true ∨ p.joins = some (i, .added) ∨
      (s.connected i = true ∧ p = .disconnecting .accept i .exchange)) : UseMove i s s' p q where
  holders := by rw [hholders]
  receives h := .inl (by rwa [hreceives] at h)
  writes h := .inl (by rwa [hwrites] at h)
  thread := hthread

/-- ... nor does one to where the thread uses no session. -/
theorem UseMove.outside {i : Sid} {s s' : ServiceState} {p q : ServicePc}
    (hholders : s'.holders = s.holders) (hreceives : s'.receives = s.receives)
    (hwrites : s'.writes = s.writes) (hq : q.uses i = false) : UseMove i s s' p q :=
  .quiet hholders hreceives hwrites fun h => absurd (hq.symm.trans h) Bool.false_ne_true

theorem ConnectCaller.uses_return (k : ConnectCaller) (i : Sid) : k.return.uses i = false := by
  cases k <;> rfl

theorem RecvCaller.uses_return (r : RecvCaller) (i : Sid) : r.return.uses i = false := by
  rcases r with (_ | _) | _ <;> rfl

theorem DisconnectCaller.uses_return (d : DisconnectCaller) (i : Sid) :
    d.return.uses i = false := by
  cases d <;> rfl

/-- Past its exchange, `Disconnect` uses the session at every counter. -/
theorem uses_disconnecting {d : DisconnectCaller} {i j : Sid} {p q : DisconnectPc}
    (hp : p ≠ .exchange) (hq : q ≠ .exchange)
    (h : (ServicePc.disconnecting d j p).uses i = true) :
    (ServicePc.disconnecting d j q).uses i = true := by
  cases p with
  | exchange => exact absurd rfl hp
  | close | callback | acquire | erase | count | release =>
      cases q with
      | exchange => exact absurd rfl hq
      | close | callback | acquire | erase | count | release => cases d <;> exact h

/-- The count of one operation more is the one before, but for the session it is issued on. -/
theorem pos_of_update_succ {f : Sid → Nat} {i j : Sid}
    (h : 0 < Function.update f j (f j + 1) i) : 0 < f i ∨ (j == i) = true := by
  by_cases hij : i = j
  · exact .inr (by simp [hij])
  · exact .inl (by rwa [Function.update_of_ne hij] at h)

theorem serviceStep_uses {limit : Int} {t : Tid} {s s' : ServiceState} {p q : ServicePc}
    (i : Sid) (h : serviceStep limit t s p = some (s', q)) : UseMove i s s' p q := by
  cases serviceAction_of_step h with
  | register | receivedError | receivedAgain | send | writtenError | writtenAgain =>
      exact .quiet rfl rfl rfl .inl
  | onConnected k j =>
      refine .quiet rfl rfl rfl fun hq => .inr (.inl ?_)
      rw [← eq_of_beq (show (j == i) = true from hq)]
      rfl
  | registerDead r => exact .outside rfl rfl rfl (r.uses_return i)
  | issueReceive r j =>
      exact ⟨rfl, fun hr => pos_of_update_succ hr, .inl,
        fun hq => absurd ((r.uses_return i).symm.trans hq) Bool.false_ne_true⟩
  | issueWrite j =>
      exact ⟨rfl, .inl, fun hw => pos_of_update_succ hw, fun hq => absurd hq Bool.false_ne_true⟩
  | exchange d j hconn =>
      refine .quiet rfl rfl rfl fun hq => ?_
      cases d with
      | accept =>
          obtain rfl : j = i := eq_of_beq hq
          exact .inr (.inr ⟨hconn, rfl⟩)
      | receive | write | other | close => exact .inl hq
  | close | onDisconnected | disconnectAcquire | erase | countDown =>
      exact .quiet rfl rfl rfl fun hq => .inl (uses_disconnecting (by simp) (by simp) hq)
  | exchangeIgnored d | disconnectRelease d => exact .outside rfl rfl rfl (d.uses_return i)
  | _ => exact .outside rfl rfl rfl rfl

/-- A use after one thread moved is one before, or one the move made. -/
theorem Used.of_set {c : ServiceConf} {i : Sid} {t : Tid} {sh : ServiceState} {p : ServicePc}
    (h : Used (c.set t sh p) i) (hholders : sh.holders i ≤ c.sh.holders i)
    (hreceives : 0 < sh.receives i → Used c i) (hwrites : 0 < sh.writes i → Used c i) :
    Used c i ∨ p.uses i = true := by
  rcases h with hh | hr | hw | ⟨u, hu⟩
  · exact .inl (.inl (Nat.lt_of_lt_of_le hh hholders))
  · exact .inl (hreceives hr)
  · exact .inl (hwrites hw)
  · exact (ServiceConf.of_pc_set (Q := fun p => p.uses i = true) hu).imp_left
      fun hu => .inr (.inr (.inr ⟨u, hu⟩))

theorem Used.of_receives {c : ServiceConf} {i : Sid} (h : 0 < c.sh.receives i) : Used c i :=
  .inr (.inl h)

theorem Used.of_writes {c : ServiceConf} {i : Sid} (h : 0 < c.sh.writes i) : Used c i :=
  .inr (.inr (.inl h))

theorem Used.of_thread {c : ServiceConf} {i : Sid} {t : Tid} (h : (c.pc t).uses i = true) :
    Used c i :=
  .inr (.inr (.inr ⟨t, h⟩))

/-- A session that is in the set, or inside a callback, was added. -/
theorem added_of_available {c : ServiceConf} {i : Sid} (hset : Settled c)
    (hlife : ∃ l e, LifeOf c i l e) (hI : Used c i → .call .addSession i ∈ c.sh.log)
    {source : HoldSource} (hs : source.available c i = true) (hfactory : source ≠ .factory) :
    .call .addSession i ∈ c.sh.log := by
  cases source with
  | factory => exact absurd rfl hfactory
  | set => exact ((hset.mem i).mp (of_decide_eq_true hs)).1
  | callback t =>
      obtain ⟨l, e, hl⟩ := hlife
      change (c.pc t).inCallback i = true at hs
      unfold ServicePc.inCallback at hs
      split at hs
      · rename_i k j hp
        obtain rfl : j = i := eq_of_beq hs
        obtain rfl := hl.joining_of_pc (t := t) (k := .added) (by rw [hp]; rfl)
        rw [hl.mem]
        rfl
      · rename_i j o hp
        exact hI (.of_thread (t := t) (by rw [hp]; exact hs))
      · rename_i j o hp
        exact hI (.of_thread (t := t) (by rw [hp]; exact hs))
      · rename_i d j hp
        refine hI (.of_thread (t := t) ?_)
        rw [hp]
        cases d <;> exact hs
      · nomatch hs

/-- **Who uses a session after a step used it before, or it was added.** -/
theorem used_step {limit : Int} {c c' : ServiceConf} {l : ServiceLabel} {i : Sid}
    (hI : Used c i → .call .addSession i ∈ c.sh.log) (hset : Settled c)
    (hlife : ∃ l e, LifeOf c i l e) (hok : HandlersOnly c l) (h : c.next limit l = some c')
    (hused : Used c' i) : .call .addSession i ∈ c.sh.log := by
  cases serviceStepped_of_next h with
  | acceptError t ha hidle | accept t ha hidle =>
      rcases hused.of_set (Nat.le_refl _) .of_receives .of_writes with hu | hp
      · exact hI hu
      · nomatch hp
  | receive t j o hr hidle =>
      rcases hused.of_set (Nat.le_refl _) (fun h => .of_receives (pos_of_update_pred h))
        .of_writes with hu | hp
      · exact hI hu
      · obtain rfl : j = i := eq_of_beq hp
        exact hI (.of_receives hr)
  | write t j o hw hidle =>
      rcases hused.of_set (Nat.le_refl _) .of_receives
        (fun h => .of_writes (pos_of_update_pred h)) with hu | hp
      · exact hI hu
      · obtain rfl : j = i := eq_of_beq hp
        exact hI (.of_writes hw)
  | hold j source hs =>
      have hfactory : source ≠ .factory := by
        rintro rfl
        exact hok
      rcases hused with hh | hrest
      · rcases pos_of_update_succ hh with hh | hji
        · exact hI (.inl hh)
        · obtain rfl : j = i := eq_of_beq hji
          exact added_of_available hset hlife hI hs hfactory
      · exact hI (.inr hrest)
  | drop j hh =>
      rcases hused with hh | hrest
      · exact hI (.inl (pos_of_update_pred hh))
      · exact hI (.inr hrest)
  | send t j hh hidle =>
      rcases hused.of_set (Nat.le_refl _) .of_receives .of_writes with hu | hp
      · exact hI hu
      · obtain rfl : j = i := eq_of_beq hp
        exact hI (.inl hh)
  | connect | disconnect | closeService | visit => exact hok.elim
  | run t sh p hs =>
      have hmove := serviceStep_uses i hs
      rcases hused.of_set (Nat.le_of_eq hmove.holders)
        (fun h => (hmove.receives h).elim .of_receives .of_thread)
        (fun h => (hmove.writes h).elim .of_writes .of_thread) with hu | hp
      · exact hI hu
      · obtain ⟨l, e, hl⟩ := hlife
        rcases hmove.thread hp with hu | hjoins | ⟨hconn, hpc⟩
        · exact hI (.of_thread hu)
        · obtain rfl := hl.joining_of_pc hjoins
          rw [hl.mem]
          rfl
        -- the accept handler refuses a session that was never connected
        · obtain rfl := hl.joining_of_pc (t := t) (k := .accepted) (by rw [hpc]; rfl)
          nomatch hconn.symm.trans hl.connected

/-! ## 3. The limit -/

/-- The thread has found room for its session and not yet counted it. -/
def ServicePc.adding : ServicePc → Bool
  | .connecting _ _ .store | .connecting _ _ .acquire | .connecting _ _ .insert
  | .connecting _ _ .count => true
  | _ => false

/-- **What a step does to the count and to the room found for a session.** -/
inductive RoomMove (limit : Int) (s s' : ServiceState) (p q : ServicePc) : Prop where
  | keep (hcount : s'.sessionCount ≤ s.sessionCount) (hq : q.adding = true → p.adding = true)
  | admitted (hcount : s'.sessionCount = s.sessionCount) (hroom : s.sessionCount < limit)
  | add (hcount : s'.sessionCount = s.sessionCount + 1) (hp : p.adding = true)
      (hq : q.adding = false)

theorem RoomMove.outside {limit : Int} {s s' : ServiceState} {p q : ServicePc}
    (hcount : s'.sessionCount ≤ s.sessionCount) (hq : q.adding = false) :
    RoomMove limit s s' p q :=
  .keep hcount fun h => absurd (hq.symm.trans h) Bool.false_ne_true

theorem serviceStep_room {limit : Int} {t : Tid} {s s' : ServiceState} {p q : ServicePc}
    (h : serviceStep limit t s p = some (s', q)) : RoomMove limit s s' p q := by
  cases serviceAction_of_step h with
  | allow i hroom => exact .admitted rfl hroom
  | store | connectAcquire | insert => exact .keep (le_refl _) fun _ => rfl
  | countUp => exact .add rfl rfl rfl
  | countDown => exact .outside (Int.sub_le_self _ Int.one_nonneg) rfl
  | registerDead r | issueReceive r =>
      exact .outside (le_refl _) (by rcases r with (_ | _) | _ <;> rfl)
  | exchangeIgnored d | disconnectRelease d =>
      exact .outside (le_refl _) (by cases d <;> rfl)
  | _ => exact .outside (le_refl _) rfl

/-- **The limit is kept**, and the room a thread has found is still there when it counts its
    session. A limit below 0 admits no session. -/
structure RoomKept (limit : Int) (c : ServiceConf) : Prop where
  bound : c.sh.sessionCount ≤ max 0 limit
  room : ∀ t, (c.pc t).adding = true → c.sh.sessionCount + 1 ≤ limit

/-- A thread moved that neither counts a session nor finds room for one. -/
theorem RoomKept.keep {limit : Int} {c : ServiceConf} (hI : RoomKept limit c) {t : Tid}
    {sh : ServiceState} {p : ServicePc} (hcount : sh.sessionCount ≤ c.sh.sessionCount)
    (hp : p.adding = true → (c.pc t).adding = true) : RoomKept limit (c.set t sh p) where
  bound := le_trans hcount hI.bound
  room u hu := by
    rw [ServiceConf.set_sh]
    by_cases hut : u = t
    · subst hut
      rw [ServiceConf.set_pc_self] at hu
      have := hI.room u (hp hu)
      omega
    · rw [c.set_pc_of_ne sh p hut] at hu
      have := hI.room u hu
      omega

/-- In a run of handlers the thread that adds a session is in the accept chain. -/
theorem accepting_of_adding {p : ServicePc} (hp : p.byHandler = true) (ha : p.adding = true) :
    p.accepting = true := by
  cases p with
  | connecting k i q =>
      cases k with
      | accept => rfl
      | connect => nomatch hp
  | idle | acceptLimit | acceptIssue | acceptTest | registering | received | disconnecting | sending
  | written | closing => nomatch ha

theorem RoomKept.step {limit : Int} {c c' : ServiceConf} {l : ServiceLabel} {n : Nat}
    (hI : RoomKept limit c) (hhandlers : Handlers c) (hchain : AcceptChain c n)
    (hok : HandlersOnly c l) (h : c.next limit l = some c') : RoomKept limit c' := by
  cases serviceStepped_of_next h with
  | acceptError t ha hidle | accept t ha hidle => exact hI.keep (le_refl _) nofun
  | receive t i o hr hidle => exact hI.keep (le_refl _) nofun
  | write t i o hw hidle => exact hI.keep (le_refl _) nofun
  | hold i source hs => exact ⟨hI.bound, hI.room⟩
  | drop i hh => exact ⟨hI.bound, hI.room⟩
  | send t i hh hidle => exact hI.keep (le_refl _) nofun
  | connect | disconnect | closeService | visit => exact hok.elim
  | run t sh p hs =>
      rcases serviceStep_room hs with ⟨hcount, hp⟩ | ⟨hcount, hroom⟩ | ⟨hcount, ht, hp⟩
      · exact hI.keep hcount hp
      · refine ⟨?_, fun u _ => ?_⟩
        · rw [ServiceConf.set_sh, hcount]
          exact hI.bound
        · rw [ServiceConf.set_sh, hcount]
          exact hroom
      · have hbound := hI.room t ht
        refine ⟨?_, fun u hu => ?_⟩
        · rw [ServiceConf.set_sh, hcount]
          exact le_trans hbound (le_max_right 0 limit)
        · -- no other thread is between the test and the count
          by_cases hut : u = t
          · subst hut
            rw [ServiceConf.set_pc_self, hp] at hu
            nomatch hu
          · rw [c.set_pc_of_ne sh p hut] at hu
            obtain ⟨o, hthread, -⟩ := hchain
            have ho := (hthread t).mp (accepting_of_adding (hhandlers t) ht)
            have ho' := (hthread u).mp (accepting_of_adding (hhandlers u) hu)
            exact absurd (Option.some.inj (ho'.symm.trans ho)) hut

/-! ## 4. The accounts -/

/-- **The invariant of a run of handlers.** -/
structure Accounts (limit : Int) (c : ServiceConf) : Prop where
  life : ∀ i, ∃ l e, LifeOf c i l e
  set : Settled c
  answered : Answered c
  used : ∀ i, Used c i → .call .addSession i ∈ c.sh.log
  handlers : Handlers c
  chain : AcceptChain c 1 ∨ AcceptChain c 0
  room : RoomKept limit c

theorem accounts_started (limit : Int) : Accounts limit (.started true) where
  life i := ⟨_, _, lifeOf_started true i⟩
  set := settled_started true
  answered i hi := nomatch hi
  used i hi := by
    rcases hi with h | h | h | ⟨t, h⟩
    · nomatch h
    · nomatch h
    · nomatch h
    · unfold ServiceConf.started at h
      dsimp only at h
      split at h <;> nomatch h
  handlers t := by
    unfold ServiceConf.started
    dsimp only
    split <;> rfl
  chain := .inl acceptChain_started
  room := by
    refine ⟨le_max_left 0 limit, fun t ht => ?_⟩
    unfold ServiceConf.started at ht
    dsimp only at ht
    split at ht <;> nomatch ht

/-- A session whose `Disconnect` is not the accept handler's refusal was added. -/
theorem Accounts.added {limit : Int} {c : ServiceConf} (hI : Accounts limit c) {t : Tid}
    {d : DisconnectCaller} {i : Sid} (hp : c.pc t = .disconnecting d i .exchange)
    (hd : d ≠ .accept) : .call .addSession i ∈ c.sh.log := by
  refine hI.used i (.of_thread (t := t) ?_)
  rw [hp]
  cases d with
  | accept => exact absurd rfl hd
  | receive | write | other | close => exact beq_self_eq_true i

theorem Accounts.orderly {limit : Int} {c : ServiceConf} (hI : Accounts limit c) :
    ∀ l, Orderly c l := by
  intro l
  cases l with
  | run t =>
      unfold Orderly
      dsimp only
      split
      · rename_i d i hp
        intro hconn
        by_cases hd : d = .accept
        · subst hd
          obtain ⟨l, e, hl⟩ := hI.life i
          obtain rfl := hl.joining_of_pc (t := t) (k := .accepted) (by rw [hp]; rfl)
          nomatch hconn.symm.trans hl.connected
        · exact hI.added hp hd
      · rename_i visited hp
        have hhandler := hI.handlers t
        rw [hp] at hhandler
        nomatch hhandler
      · trivial
  | accept | connect | receive | write | hold | drop | send | disconnect | closeService | visit =>
      trivial

theorem Accounts.timely {limit : Int} {c : ServiceConf} (hI : Accounts limit c) :
    ∀ l, Timely c l := by
  intro l
  cases l with
  | run t =>
      unfold Timely
      dsimp only
      split
      · rename_i d i hp
        by_cases hd : d = .accept
        · exact .inl hd
        · exact .inr (.inl (hI.added hp hd))
      · trivial
  | accept | connect | receive | write | hold | drop | send | disconnect | closeService | visit =>
      trivial

theorem Accounts.step {limit : Int} {c c' : ServiceConf} {l : ServiceLabel}
    (hI : Accounts limit c) (hok : HandlersOnly c l) (h : c.next limit l = some c') :
    Accounts limit c' where
  life i := by
    obtain ⟨l, e, hl⟩ := hI.life i
    exact hl.step h
  set := hI.set.step hI.life (hI.orderly l) h
  answered := hI.answered.step hI.life (hI.timely l) h
  used i hu :=
    (log_prefix_of_next h).subset (used_step (hI.used i) hI.set (hI.life i) hok h hu)
  handlers := hI.handlers.step hok h
  chain := by
    rcases hI.chain with hc | hc
    · rcases hc.step (Nat.le_refl 1) h with hc' | ⟨-, -, -, -, hc'⟩
      · exact .inl hc'
      · exact .inr hc'
    · rcases hc.step (Nat.zero_le 1) h with hc' | ⟨-, -, -, -, hc'⟩
      · exact .inr hc'
      · exact .inr hc'
  room := by
    rcases hI.chain with hc | hc
    · exact hI.room.step hI.handlers hc hok h
    · exact hI.room.step hI.handlers hc hok h

/-- **Session accounting.** On every run of a ServerService whose sessions only its receive and
    write handlers disconnect: with the lock free the count is the size of the set, not below 0 and
    not above the limit; and once every `Disconnect` of an added session has returned, at least one
    having been made, the session was released exactly once and is not in the set. -/
theorem session_accounting (limit : Int) {c : ServiceConf}
    (hr : Reach (ServiceConf.next limit) HandlersOnly (.started true) c) :
    (c.sh.lock = none → c.sh.sessionCount = c.sh.sessions.card ∧ 0 ≤ c.sh.sessionCount ∧
      c.sh.sessionCount ≤ max 0 limit) ∧
    ∀ i, .call .addSession i ∈ c.sh.log →
      .call .disconnect i ∈ c.sh.log ∨ .ignored i ∈ c.sh.log →
      (∀ t, (c.pc t).insideDisconnect i = false) →
      c.sh.log.count (.call .releaseSession i) = 1 ∧ i ∉ c.sh.sessions := by
  have hI : Accounts limit c :=
    hr.invariant (accounts_started limit) fun _ _ _ hI hok h => hI.step hok h
  refine ⟨fun hfree => ?_, fun i hadd hcalled hreturned => ?_⟩
  · have hcard := count_eq_card (.of_reach hr) (counted_of_reach hr) hI.set hfree
    refine ⟨hcard, ?_, hI.room.bound⟩
    rw [hcard]
    exact Int.natCast_nonneg _
  · exact released_of_returned (hI.life i) hI.set hI.answered hadd hcalled hreturned

/-- A client connects and is sent something; its receive and its write fail together, on threads 1
    and 2, and both handlers disconnect the session. -/
def twoFailures : List ServiceLabel :=
  clientRun ++ [.hold 0 .set, .send 1 0, .run 1, .run 1, .drop 0, .receive 1 0 .error,
    .write 2 0 (.failed .connectionReset), .run 1, .run 2, .run 2, .run 1, .run 2, .run 2, .run 2,
    .run 2, .run 2, .run 2]

theorem session_accounting_twoFailures :
    ∃ c, exec (ServiceConf.next 1) HandlersOnly (.started true) twoFailures = some c ∧
      c.sh.lock = none ∧ c.sh.sessionCount = c.sh.sessions.card ∧
      c.sh.log.count (.call .releaseSession 0) = 1 := by
  have hreturned : ∀ c : ServiceConf, exec (ServiceConf.next 1) HandlersOnly (.started true)
      twoFailures = some c → ∀ t, (c.pc t).insideDisconnect 0 = false := by
    intro c hc t
    obtain rfl := Option.some.inj hc
    by_cases h0 : t = 0
    · subst h0
      rfl
    · by_cases h1 : t = 1
      · subst h1
        rfl
      · by_cases h2 : t = 2
        · subst h2
          rfl
        · simp [ServiceConf.set_pc_of_ne, ServiceConf.started, h0, h1, h2,
            ServicePc.insideDisconnect]
  refine ⟨_, rfl, rfl, ((session_accounting 1 (.of_exec twoFailures rfl)).1 rfl).1,
    ((session_accounting 1 (.of_exec twoFailures rfl)).2 0 ?_ ?_ (hreturned _ rfl)).1⟩
  · decide
  · decide

end ServerCore
