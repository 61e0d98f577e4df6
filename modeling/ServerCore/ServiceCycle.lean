/-
  File:      ServerCore/ServiceCycle.lean
  Subject:   The life cycle of a connection, whoever disconnects the session.

  `ProcessConnect` sets `_connected` before it adds the session and before it calls `OnConnected`,
  so a `Disconnect` in between undoes what has not been done yet. Where every `Disconnect` comes
  after `OnConnected`, and `CloseService` comes to its `clear` with an empty set, a session sees
  `OnConnected`, then `OnDisconnected`, and leaves nothing behind (`life_cycle`); a `Disconnect`
  that comes too early, or a `clear` that takes sessions away, leads to a configuration where it
  is not so.
-/
import ServerCore.ServiceSet

namespace ServerCore

open Trans

/-! ## 1. The callbacks of a session -/

/-- The callback of the session `i` that the event is. -/
def ServiceEvent.callback (i : Sid) : ServiceEvent → Option ServiceCall
  | .call .onConnected j => if j = i then some .onConnected else none
  | .call .onDisconnected j => if j = i then some .onDisconnected else none
  | .call .addSession _ | .call .disconnect _ | .call .releaseSession _ | .ignored _ => none

/-- The callbacks a session has seen, in their order. -/
def callbacks (i : Sid) (log : List ServiceEvent) : List ServiceCall :=
  log.filterMap (ServiceEvent.callback i)

theorem callbacks_append (i : Sid) (log : List ServiceEvent) (e : ServiceEvent) :
    callbacks i (log ++ [e]) = callbacks i log ++ (e.callback i).toList := by
  unfold callbacks
  rw [List.filterMap_append]
  cases h : e.callback i <;> simp [List.filterMap, h]

theorem mem_callbacks {i : Sid} {log : List ServiceEvent} {k : ServiceCall}
    (hk : k = .onConnected ∨ k = .onDisconnected) :
    k ∈ callbacks i log ↔ .call k i ∈ log := by
  simp only [callbacks, List.mem_filterMap]
  constructor
  · rintro ⟨e, he, hcall⟩
    rcases e with ⟨k', j⟩ | j
    · cases k' with
      | onConnected | onDisconnected =>
          simp only [ServiceEvent.callback] at hcall
          split at hcall
          · rename_i hj
            cases hcall
            exact hj ▸ he
          · nomatch hcall
      | addSession | disconnect | releaseSession => nomatch hcall
    · nomatch hcall
  · intro h
    refine ⟨_, h, ?_⟩
    rcases hk with rfl | rfl <;> simp [ServiceEvent.callback]

/-- The callbacks of a connection that goes as it should. -/
def ServiceConf.inOrder (c : ServiceConf) (i : Sid) : Prop :=
  callbacks i c.sh.log <+: [.onConnected, .onDisconnected]

instance (c : ServiceConf) (i : Sid) : Decidable (c.inOrder i) :=
  inferInstanceAs (Decidable (callbacks i c.sh.log <+: _))

/-- Neither callback yet: the first may be `OnConnected`. -/
theorem callbacks_connected {i : Sid} {log : List ServiceEvent}
    (h : callbacks i log <+: [.onConnected, .onDisconnected])
    (hconn : .call .onConnected i ∉ log) :
    callbacks i (log ++ [.call .onConnected i]) <+: [.onConnected, .onDisconnected] := by
  have hnil : callbacks i log = [] := by
    rcases List.prefix_cons_iff.mp h with hnil | ⟨rest, hrest, -⟩
    · exact hnil
    · exact absurd ((mem_callbacks (.inl rfl)).mp (by rw [hrest]; exact List.mem_cons_self)) hconn
  rw [callbacks_append, hnil]
  simp [ServiceEvent.callback]

/-- `OnConnected` has been called, and `OnDisconnected` follows. -/
theorem callbacks_disconnected {i : Sid} {log : List ServiceEvent}
    (h : callbacks i log <+: [.onConnected, .onDisconnected])
    (hconn : .call .onConnected i ∈ log) (hdisc : .call .onDisconnected i ∉ log) :
    callbacks i (log ++ [.call .onDisconnected i]) <+: [.onConnected, .onDisconnected] := by
  have hone : callbacks i log = [.onConnected] := by
    have hin := (mem_callbacks (.inl rfl)).mpr hconn
    have hout := mt (mem_callbacks (.inr rfl)).mp hdisc
    rcases List.prefix_cons_iff.mp h with hnil | ⟨rest, hrest, hpre⟩
    · rw [hnil] at hin
      nomatch hin
    · rcases List.prefix_cons_iff.mp hpre with hnil | ⟨rest', hrest', -⟩
      · rw [hrest, hnil]
      · rw [hrest, hrest'] at hout
        exact absurd (List.mem_cons_of_mem _ List.mem_cons_self) hout
  rw [callbacks_append, hone]
  simp [ServiceEvent.callback]

/-- `OnDisconnected` without `OnConnected` before it. -/
theorem not_inOrder_of_disconnected {i : Sid} {log : List ServiceEvent}
    (hconn : .call .onConnected i ∉ log) (hdisc : .call .onDisconnected i ∈ log) :
    ¬ callbacks i log <+: [.onConnected, .onDisconnected] := by
  intro h
  have hin := (mem_callbacks (.inr rfl)).mpr hdisc
  rcases List.prefix_cons_iff.mp h with hnil | ⟨rest, hrest, -⟩
  · rw [hnil] at hin
    nomatch hin
  · exact hconn ((mem_callbacks (.inl rfl)).mp (by rw [hrest]; exact List.mem_cons_self))

/-! ## 2. The law and its condition -/

/-- **The life cycle of every connection.** -/
structure LifeCycle (c : ServiceConf) : Prop where
  /-- the callbacks come in their order, each once -/
  callbacks : ∀ i, c.inOrder i
  /-- once `ProcessConnect` has added the session and every `Disconnect` of it has returned, at
      least one having been made, it is not in the set -/
  gone : ∀ i, .call .addSession i ∈ c.sh.log →
    .call .disconnect i ∈ c.sh.log ∨ .ignored i ∈ c.sh.log →
    (∀ t, (c.pc t).insideDisconnect i = false) → i ∉ c.sh.sessions
  /-- with the lock free, the count is the size of the set -/
  count : c.sh.lock = none → c.sh.sessionCount = c.sh.sessions.card

/-- **A step in its time**: a `Disconnect`, unless the accept handler refuses the session, comes
    after the way in of the session is over; `CloseService` clears a set that is empty. -/
def InTime (c : ServiceConf) : ServiceLabel → Prop
  | .run t => match c.pc t with
    | .disconnecting d i .exchange => d = .accept ∨ Arrived c i
    | .closing _ .clear => c.sh.sessions = ∅
    | _ => True
  | _ => True

/-- **A step out of its time**: a `Disconnect` takes effect on a session on its way in, or
    `CloseService` clears sessions. -/
def TooEarly (c : ServiceConf) : ServiceLabel → Prop
  | .run t => match c.pc t with
    | .disconnecting _ i .exchange => c.sh.connected i = true ∧ ¬ Arrived c i
    | .closing _ .clear => c.sh.sessions ≠ ∅
    | _ => False
  | _ => False

/-- A connected session whose way in is over has been told that it is connected. -/
theorem LifeOf.up_of_arrived {c : ServiceConf} {i : Sid} {l : Life} {e : Ending}
    (h : LifeOf c i l e) (ha : Arrived c i) (hconn : c.sh.connected i = true) : l = .up := by
  rw [h.connected] at hconn
  have hstored := (Bool.and_eq_true_iff.mp hconn).1
  cases l with
  | unborn | refused => nomatch hstored
  | joining t k => exact absurd ((h.joins t k).mpr rfl) (ha.2 t k)
  | up => rfl

/-- A connected session that has not been told so is on its way in. -/
theorem LifeOf.not_told {c : ServiceConf} {i : Sid} {l : Life} {e : Ending}
    (h : LifeOf c i l e) (ha : ¬ Arrived c i) :
    .call .onConnected i ∉ c.sh.log := by
  rw [h.mem]
  intro hmade
  obtain rfl : l = .up := by simpa [made] using hmade
  refine ha ⟨Nat.lt_of_not_le fun hle => ?_, fun u k hk => ?_⟩
  · cases h.born.mpr hle
  · cases (h.joins u k).mp hk

/-- What a `Disconnect` in its time takes out has been told that it is connected. -/
theorem told_of_inTime {c : ServiceConf} {t : Tid} {d : DisconnectCaller} {i : Sid}
    (hlife : ∃ l e, LifeOf c i l e) (hok : InTime c (.run t))
    (hp : c.pc t = .disconnecting d i .exchange) (hconn : c.sh.connected i = true) :
    .call .onConnected i ∈ c.sh.log ∧ .call .addSession i ∈ c.sh.log := by
  obtain ⟨l, e, hl⟩ := hlife
  simp only [InTime, hp] at hok
  rcases hok with rfl | ha
  · obtain rfl := hl.joining_of_pc (t := t) (k := .accepted) (by rw [hp]; rfl)
    nomatch hconn.symm.trans hl.connected
  · obtain rfl := hl.up_of_arrived ha hconn
    rw [hl.mem, hl.mem]
    exact ⟨rfl, rfl⟩

theorem InTime.orderly {c : ServiceConf} {l : ServiceLabel}
    (hlife : ∀ i, ∃ l e, LifeOf c i l e) (hok : InTime c l) : Orderly c l := by
  cases l with
  | run t =>
      unfold Orderly
      dsimp only
      split
      · rename_i d i hp
        exact fun hconn => (told_of_inTime (hlife i) hok hp hconn).2
      · rename_i visited hp
        simpa only [InTime, hp] using hok
      · trivial
  | accept | connect | receive | write | hold | drop | send | disconnect | closeService | visit =>
      trivial

theorem InTime.timely {c : ServiceConf} {l : ServiceLabel} (hok : InTime c l) : Timely c l := by
  cases l with
  | run t =>
      unfold Timely
      dsimp only
      split
      · rename_i d i hp
        simp only [InTime, hp] at hok
        rcases hok with hd | ha
        · exact .inl hd
        · exact .inr (.inr ha)
      · trivial
  | accept | connect | receive | write | hold | drop | send | disconnect | closeService | visit =>
      trivial

/-! ## 3. The order of the callbacks -/

/-- `Disconnect` took effect after `OnConnected`, and the callbacks are in their order. -/
structure Told (c : ServiceConf) : Prop where
  first : ∀ i, .call .disconnect i ∈ c.sh.log → .call .onConnected i ∈ c.sh.log
  order : ∀ i, c.inOrder i

/-- An event that is no callback and no `Disconnect` that took effect. -/
theorem Told.note {c c' : ServiceConf} (hI : Told c) {e : ServiceEvent}
    (hlog : c'.sh.log = c.sh.log ++ [e]) (hcall : ∀ i, e.callback i = none)
    (hfirst : ∀ i, e = .call .disconnect i → .call .onConnected i ∈ c.sh.log) : Told c' where
  first i hi := by
    rw [hlog, List.mem_append, List.mem_singleton] at hi
    rw [hlog]
    rcases hi with hi | hi
    · exact List.mem_append_left _ (hI.first i hi)
    · exact List.mem_append_left _ (hfirst i hi.symm)
  order i := by
    unfold ServiceConf.inOrder
    rw [hlog, callbacks_append, hcall i, Option.toList_none, List.append_nil]
    exact hI.order i

/-- A callback of the session `i`. -/
theorem Told.call {c c' : ServiceConf} (hI : Told c) {k : ServiceCall} {i : Sid}
    (hk : k = .onConnected ∨ k = .onDisconnected)
    (hlog : c'.sh.log = c.sh.log ++ [.call k i])
    (horder : callbacks i (c.sh.log ++ [.call k i]) <+: [.onConnected, .onDisconnected]) :
    Told c' where
  first j hj := by
    rw [hlog, List.mem_append, List.mem_singleton] at hj
    rw [hlog]
    rcases hj with hj | hj
    · exact List.mem_append_left _ (hI.first j hj)
    · rcases hk with rfl | rfl <;> nomatch hj
  order j := by
    unfold ServiceConf.inOrder
    rw [hlog]
    by_cases hij : i = j
    · rw [← hij]
      exact horder
    · have hnone : (ServiceEvent.call k i).callback j = none := by
        rcases hk with rfl | rfl <;> simp [ServiceEvent.callback, hij]
      rw [callbacks_append, hnone, Option.toList_none, List.append_nil]
      exact hI.order j

theorem Told.step {limit : Int} {c c' : ServiceConf} {l : ServiceLabel} (hI : Told c)
    (hlife : ∀ i, ∃ l e, LifeOf c i l e) (hok : InTime c l) (h : c.next limit l = some c') :
    Told c' := by
  have hsame : c'.sh.log = c.sh.log → Told c' := fun hlog =>
    ⟨by rw [hlog]; exact hI.first, by unfold ServiceConf.inOrder; rw [hlog]; exact hI.order⟩
  rcases serviceMove_of_next h with ⟨t, rfl, hm⟩ | ⟨-, hlog⟩
  · cases hm with
    | quiet hset hlog | clear visited hp hset hlog => exact hsame hlog
    | insert k i hp hset hlog | erase d i hp hset hlog =>
        exact hI.note hlog (fun _ => rfl) nofun
    | onConnected k i hp hset hlog =>
        obtain ⟨l, e, hl⟩ := hlife i
        obtain rfl := hl.joining_of_pc (t := t) (k := .added) (by rw [hp]; rfl)
        refine hI.call (.inl rfl) hlog (callbacks_connected (hI.order i) ?_)
        rw [hl.mem]
        nofun
    | exchange d i hp hset hlog =>
        refine hI.note hlog (fun j => by split <;> rfl) fun j hj => ?_
        split at hj
        · rename_i hconn
          cases hj
          exact (told_of_inTime (hlife _) hok hp hconn).1
        · nomatch hj
    | onDisconnected d i hp hset hlog =>
        obtain ⟨l, e, hl⟩ := hlife i
        obtain rfl := hl.leaving_of_pc (t := t) (k := .closing) (by rw [hp]; rfl)
        refine hI.call (.inr rfl) hlog (callbacks_disconnected (hI.order i) (hI.first i ?_) ?_)
        · rw [hl.mem]
          rfl
        · rw [hl.mem]
          nofun
  · exact hsame hlog

/-! ## 4. The law -/

/-- **The invariant of a run whose steps come in their time.** -/
structure Cycled (c : ServiceConf) : Prop where
  life : ∀ i, ∃ l e, LifeOf c i l e
  set : Settled c
  answered : Answered c
  told : Told c

theorem cycled_started (server : Bool) : Cycled (.started server) where
  life i := ⟨_, _, lifeOf_started server i⟩
  set := settled_started server
  answered _ hi := nomatch hi
  told := ⟨fun _ hi => (nomatch hi), fun _ => List.nil_prefix⟩

theorem cycled_of_reach {limit : Int} {server : Bool} {c : ServiceConf}
    (hr : Reach (ServiceConf.next limit) InTime (.started server) c) : Cycled c := by
  refine hr.invariant (cycled_started server) fun c c' l hI hok h => ?_
  refine ⟨fun i => ?_, hI.set.step hI.life (hok.orderly hI.life) h,
    hI.answered.step hI.life hok.timely h, hI.told.step hI.life hok h⟩
  obtain ⟨l, e, hl⟩ := hI.life i
  exact hl.step h

/-- A `Disconnect` that takes effect on a session on its way in calls `OnDisconnected` first. -/
theorem violation_of_exchange {limit : Int} {c c' : ServiceConf} {t : Tid}
    {d : DisconnectCaller} {i : Sid} (hlife : ∃ l e, LifeOf c i l e)
    (hp : c.pc t = .disconnecting d i .exchange) (hconn : c.sh.connected i = true)
    (hearly : ¬ Arrived c i) (h : c.next limit (.run t) = some c') :
    ∃ ls c'', exec (ServiceConf.next limit) always c' ls = some c'' ∧ ¬ LifeCycle c'' := by
  obtain ⟨l, e, hl⟩ := hlife
  simp only [ServiceConf.next, hp, serviceStep, disconnectStep, hconn, if_true, Option.map_some,
    Option.some.injEq] at h
  subst h
  -- the socket is closed and `OnDisconnected` called
  refine ⟨[.run t, .run t], _, (exec_cons trivial (ServiceConf.next_set_run rfl) _).trans
    (exec_cons trivial (ServiceConf.next_set_run rfl) _), fun hlaw => ?_⟩
  · refine not_inOrder_of_disconnected ?_ ?_ (hlaw.callbacks i)
    · simp [hl.not_told hearly]
    · simp

/-- A `clear` that takes sessions away leaves the count behind. -/
theorem violation_of_clear {limit : Int} {c c' : ServiceConf} {t : Tid} {visited : List Sid}
    (hlock : ServiceLock c) (hcount : Counted c) (hset : Settled c)
    (hp : c.pc t = .closing visited .clear) (hsome : c.sh.sessions ≠ ∅)
    (h : c.next limit (.run t) = some c') :
    ∃ ls c'', exec (ServiceConf.next limit) always c' ls = some c'' ∧ ¬ LifeCycle c'' := by
  simp only [ServiceConf.next, hp, serviceStep, closeStep, Option.map_some, Option.some.injEq] at h
  subst h
  -- `CloseService` releases the lock
  refine ⟨[.run t], _, exec_cons trivial (ServiceConf.next_set_run rfl) _, fun hlaw => ?_⟩
  · have hfree : Mutex.release c.sh.lock = none := by
      refine Mutex.release_eq_none (t := t) ((hlock t).trans ?_)
      dsimp only
      rw [hp]
      rfl
    have hothers : ∀ u, u ≠ t → (c.pc u).drift = 0 := by
      intro u hu
      by_contra hne
      exact hu (hlock.unique (ServicePc.held_of_drift hne) (by rw [hp]; exact Nat.one_pos))
    have hsum := hcount t hothers
    unfold settledCount at hsum
    rw [hp, hset.size] at hsum
    have hzero := hlaw.count hfree
    have hpos := Finset.card_pos.mpr (Finset.nonempty_iff_ne_empty.mpr hsome)
    simp only [ServicePc.drift, ServiceConf.set_sh, Finset.card_empty] at hsum hzero
    omega

/-- **Connection life cycle.** On every run whose steps come in their time the law holds in every
    configuration; a step that comes too early can be followed to one where it fails. -/
theorem life_cycle (limit : Int) (server : Bool) (c : ServiceConf)
    (hr : Reach (ServiceConf.next limit) InTime (.started server) c) :
    LifeCycle c ∧
    ∀ l c', TooEarly c l → c.next limit l = some c' →
      ∃ ls c'', exec (ServiceConf.next limit) always c' ls = some c'' ∧ ¬ LifeCycle c'' := by
  have hI := cycled_of_reach hr
  refine ⟨⟨hI.told.order, fun i hadd hcalled hreturned => ?_, fun hfree => ?_⟩, ?_⟩
  · exact (released_of_returned (hI.life i) hI.set hI.answered hadd hcalled hreturned).2
  · exact count_eq_card (.of_reach hr) (counted_of_reach hr) hI.set hfree
  · intro l c' hearly h
    cases l with
    | run t =>
        unfold TooEarly at hearly
        dsimp only at hearly
        split at hearly
        · rename_i d i hp
          exact violation_of_exchange (hI.life i) hp hearly.1 hearly.2 h
        · rename_i visited hp
          exact violation_of_clear (.of_reach hr) (counted_of_reach hr) hI.set hp hearly h
        · exact hearly.elim
    | accept | connect | receive | write | hold | drop | send | disconnect | closeService
    | visit => exact hearly.elim

/-- The step is no exchange and no `clear`. -/
def Undisturbed (c : ServiceConf) : ServiceLabel → Bool
  | .run t => match c.pc t with
    | .disconnecting _ _ .exchange | .closing _ .clear => false
    | _ => true
  | _ => true

theorem inTime_of_undisturbed (c : ServiceConf) (l : ServiceLabel) (h : Undisturbed c l = true) :
    InTime c l := by
  cases l with
  | run t =>
      unfold InTime
      unfold Undisturbed at h
      dsimp only at h ⊢
      split
      · rename_i d i hp
        rw [hp] at h
        nomatch h
      · rename_i visited hp
        rw [hp] at h
        nomatch h
      · trivial
  | accept | connect | receive | write | hold | drop | send | disconnect | closeService | visit =>
      trivial

/-- A session of a ClientService connects and its receive fails: thread 0 connects, thread 1
    is at the exchange. -/
def connectRun : List ServiceLabel :=
  .connect 0 :: List.replicate 8 (.run 0) ++ [.receive 1 0 .error, .run 1]

/-- The life of a session whose receive fails after it is connected. -/
theorem life_cycle_run :
    ∃ c, Reach (ServiceConf.next 1) InTime (.started false) c ∧
      callbacks 0 c.sh.log = [.onConnected, .onDisconnected] ∧ LifeCycle c := by
  have hbefore : Reach (ServiceConf.next 1) (fun c l => Undisturbed c l = true)
      (.started false) _ := .of_exec connectRun rfl
  have harrived : ∀ c : ServiceConf, exec (ServiceConf.next 1)
      (fun c l => Undisturbed c l = true) (.started false) connectRun = some c → Arrived c 0 := by
    intro c hc
    obtain rfl := Option.some.inj hc
    refine ⟨Nat.one_pos, fun u k => ?_⟩
    by_cases h0 : u = 0
    · subst h0
      nofun
    · by_cases h1 : u = 1
      · subst h1
        nofun
      · simp [ServiceConf.set_pc_of_ne, ServiceConf.started, h0, h1, ServicePc.joins]
  have hexchange : Reach (ServiceConf.next 1) InTime (.started false) _ :=
    .step _ _ (.run 1) (hbefore.mono inTime_of_undisturbed fun _ _ _ h => h)
      (.inr (harrived _ rfl)) rfl
  have hrun := hexchange.trans (.mono inTime_of_undisturbed (fun _ _ _ h => h)
    (.of_exec (List.replicate 6 (.run 1)) rfl))
  exact ⟨_, hrun, rfl, (life_cycle 1 false _ hrun).1⟩

/-- `CloseService` comes to a session between `AddSession` and `OnConnected`: the session sees
    `OnDisconnected` alone. And a reference the factory kept disconnects a session between
    `_connected.store(true)` and `AddSession`: every call has returned, the session is in the set,
    and the count is 0. -/
theorem disconnect_too_early :
    (∃ c, Reach (ServiceConf.next 1) always (.started true) c ∧
      callbacks 0 c.sh.log = [.onDisconnected] ∧ ¬ LifeCycle c) ∧
    ∃ c, Reach (ServiceConf.next 1) always (.started false) c ∧
      (∀ t, c.pc t = .idle) ∧ callbacks 0 c.sh.log = [.onDisconnected, .onConnected] ∧
      0 ∈ c.sh.sessions ∧ c.sh.sessionCount = 0 ∧ ¬ LifeCycle c := by
  constructor
  · refine ⟨_, .of_exec (.run 0 :: .run 0 :: .accept 0 false :: List.replicate 6 (.run 0) ++
      [.closeService 1, .run 1, .visit 1 0, .run 1, .run 1, .run 1]) rfl, rfl, fun hlaw => ?_⟩
    exact absurd (hlaw.callbacks 0) (by decide)
  · have hidle : ∀ c : ServiceConf, exec (ServiceConf.next 1) always (.started false)
        (.hold 0 .factory :: .connect 0 :: .run 0 :: .disconnect 1 0 ::
          List.replicate 7 (.run 1) ++ List.replicate 6 (.run 0)) = some c →
        ∀ t, c.pc t = .idle := by
      intro c hc t
      obtain rfl := Option.some.inj hc
      by_cases h0 : t = 0
      · subst h0
        rfl
      · by_cases h1 : t = 1
        · subst h1
          rfl
        · simp [ServiceConf.set_pc_of_ne, ServiceConf.started, h0, h1]
    refine ⟨_, .of_exec (.hold 0 .factory :: .connect 0 :: .run 0 :: .disconnect 1 0 ::
      List.replicate 7 (.run 1) ++ List.replicate 6 (.run 0)) rfl, hidle _ rfl, rfl, by decide, rfl,
      fun hlaw => ?_⟩
    exact absurd (hlaw.callbacks 0) (by decide)

end ServerCore
