/-
  File:      ServerCore/ServiceLife.lean
  Subject:   The life of one session of a Service: who connects it, who disconnects it, and what
             has been called for it.

  On every run, whoever calls `Disconnect` and whenever, a session is at one place on its way in
  (`Life`) and at one on its way out (`Ending`): `ProcessConnect` runs once, and the exchange of
  `_connected` admits one `Disconnect` (`LifeOf`). Both say which thread is the one on the way, and
  the log says the same (`LifeOf.calls`).

  What they do not say is that the way out comes after the way in: that depends on when
  `Disconnect` is called. `serviceMove_of_next` gives the effect of a step on the set and the log.
-/
import ServerCore.ServiceLock

namespace ServerCore

open Trans

/-! ## 1. The two ways -/

/-- Where a thread is on the way in. -/
inductive Joining where
  /-- before `_connected.store(true)`, or about to refuse the session -/
  | accepted
  /-- before `_sessions.insert(session)` -/
  | stored
  /-- before `OnConnected()` -/
  | added
  deriving DecidableEq, Repr

/-- Where a thread is on the way out. -/
inductive Leaving where
  /-- before `OnDisconnected()` -/
  | closing
  /-- before `_sessions.erase(session)` -/
  | leaving
  deriving DecidableEq, Repr

/-- The session the thread brings in. -/
def ServicePc.joins : ServicePc → Option (Sid × Joining)
  | .acceptTest i | .connecting _ i .store | .disconnecting .accept i .exchange =>
      some (i, .accepted)
  | .connecting _ i .acquire | .connecting _ i .insert => some (i, .stored)
  | .connecting _ i .count | .connecting _ i .release | .connecting _ i .callback =>
      some (i, .added)
  | _ => none

/-- The session the thread takes out. -/
def ServicePc.leaves : ServicePc → Option (Sid × Leaving)
  | .disconnecting _ i .close | .disconnecting _ i .callback => some (i, .closing)
  | .disconnecting _ i .acquire | .disconnecting _ i .erase => some (i, .leaving)
  | _ => none

/-- The way in: not begun, in the hands of a thread, refused, or `OnConnected` has been called. -/
inductive Life where
  | unborn
  | joining (t : Tid) (k : Joining)
  | refused
  | up
  deriving DecidableEq, Repr

/-- The way out: not begun, in the hands of a thread, or `ReleaseSession` has erased it. -/
inductive Ending where
  | none
  | leaving (t : Tid) (k : Leaving)
  | released
  deriving DecidableEq, Repr

/-- The thread on the way in. -/
def Life.carrier : Life → Option (Tid × Joining)
  | .joining t k => some (t, k)
  | _ => Option.none

/-- The thread on the way out. -/
def Ending.carrier : Ending → Option (Tid × Leaving)
  | .leaving t k => some (t, k)
  | _ => Option.none

/-- `_connected.store(true)` was executed. -/
def Life.stored : Life → Bool
  | .joining _ .stored | .joining _ .added | .up => true
  | _ => false

/-- `AddSession` has inserted the session. -/
def Life.added : Life → Bool
  | .joining _ .added | .up => true
  | _ => false

/-- The calls made for a session. -/
def made (l : Life) (e : Ending) : ServiceCall → Bool
  | .addSession => l.added
  | .onConnected => l == .up
  | .disconnect => e != .none
  | .onDisconnected => match e with
    | .leaving _ .leaving | .released => true
    | _ => false
  | .releaseSession => e == .released

/-- **The life of the session `i`.** -/
structure LifeOf (c : ServiceConf) (i : Sid) (l : Life) (e : Ending) : Prop where
  born : l = .unborn ↔ c.sh.created ≤ i
  joins : ∀ u k, (c.pc u).joins = some (i, k) ↔ l.carrier = some (u, k)
  leaves : ∀ u k, (c.pc u).leaves = some (i, k) ↔ e.carrier = some (u, k)
  connected : c.sh.connected i = (l.stored && e == .none)
  stored : e ≠ .none → l.stored = true
  calls : ∀ k, c.sh.log.count (.call k i) = (made l e k).toNat

/-! ## 2. What a moving thread changes -/

/-- A thread carries a session on, takes it over or lays it down. -/
theorem carries_set {κ : Type} {c : ServiceConf} {f : ServicePc → Option (Sid × κ)} {i : Sid}
    {o o' : Option (Tid × κ)} {t : Tid} {sh : ServiceState} {p : ServicePc}
    (h : ∀ u k, f (c.pc u) = some (i, k) ↔ o = some (u, k))
    (hself : ∀ k, f p = some (i, k) ↔ o' = some (t, k))
    (hother : ∀ u k, u ≠ t → (o' = some (u, k) ↔ o = some (u, k))) :
    ∀ u k, f ((c.set t sh p).pc u) = some (i, k) ↔ o' = some (u, k) := by
  intro u k
  by_cases hu : u = t
  · subst hu
    rw [ServiceConf.set_pc_self]
    exact hself k
  · rw [c.set_pc_of_ne sh p hu, h u k]
    exact (hother u k hu).symm

/-- A step that does not concern the session `i`. -/
theorem LifeOf.frame {c : ServiceConf} {i : Sid} {l : Life} {e : Ending} (h : LifeOf c i l e)
    {t : Tid} {sh : ServiceState} {p : ServicePc} (hcreated : sh.created = c.sh.created)
    (hconn : sh.connected i = c.sh.connected i)
    (hlog : ∀ k, sh.log.count (.call k i) = c.sh.log.count (.call k i))
    (hjoins : ∀ k, p.joins = some (i, k) ↔ (c.pc t).joins = some (i, k))
    (hleaves : ∀ k, p.leaves = some (i, k) ↔ (c.pc t).leaves = some (i, k)) :
    LifeOf (c.set t sh p) i l e where
  born := by rw [ServiceConf.set_sh, hcreated]; exact h.born
  joins := carries_set h.joins (fun k => (hjoins k).trans (h.joins t k)) fun _ _ _ => .rfl
  leaves := carries_set h.leaves (fun k => (hleaves k).trans (h.leaves t k)) fun _ _ _ => .rfl
  connected := by rw [ServiceConf.set_sh, hconn]; exact h.connected
  stored := h.stored
  calls k := by rw [ServiceConf.set_sh, hlog]; exact h.calls k

/-- A thread moves on without any session. -/
theorem LifeOf.pass {c : ServiceConf} {i : Sid} {l : Life} {e : Ending} (h : LifeOf c i l e)
    {t : Tid} {sh : ServiceState} {p : ServicePc} (hcreated : sh.created = c.sh.created)
    (hconn : sh.connected = c.sh.connected) (hlog : sh.log = c.sh.log)
    (hjoins : p.joins = (c.pc t).joins) (hleaves : p.leaves = (c.pc t).leaves) :
    LifeOf (c.set t sh p) i l e :=
  h.frame hcreated (congrFun hconn i) (fun _ => by rw [hlog]) (fun k => by rw [hjoins])
    fun k => by rw [hleaves]

/-- A call recorded for another session, or of another kind, is not one of `k` for `i`. -/
theorem count_call_append (log : List ServiceEvent) (k k' : ServiceCall) (i j : Sid) :
    (log ++ [ServiceEvent.call k' j]).count (.call k i) =
      log.count (.call k i) + if k' = k ∧ j = i then 1 else 0 := by
  rw [List.count_append, List.count_singleton]
  congr 1
  simp

@[simp] theorem count_ignored_append (log : List ServiceEvent) (k : ServiceCall) (i j : Sid) :
    (log ++ [ServiceEvent.ignored j]).count (.call k i) = log.count (.call k i) := by
  rw [List.count_append, List.count_singleton]
  rfl

/-- One call more for the session `i`. -/
theorem LifeOf.calls_append {c : ServiceConf} {i : Sid} {l l' : Life} {e e' : Ending}
    (h : LifeOf c i l e) {k' : ServiceCall}
    (hnew : ∀ k, (made l' e' k).toNat = (made l e k).toNat + if k' = k then 1 else 0)
    (k : ServiceCall) :
    (c.sh.log ++ [ServiceEvent.call k' i]).count (.call k i) = (made l' e' k).toNat := by
  rw [count_call_append, h.calls k, hnew k]
  simp

theorem Life.eq_of_carrier {l : Life} {t : Tid} {k : Joining} (h : l.carrier = some (t, k)) :
    l = .joining t k := by
  cases l with
  | joining u k' =>
      cases h
      rfl
  | unborn | refused | up => nomatch h

theorem Ending.eq_of_carrier {e : Ending} {t : Tid} {k : Leaving}
    (h : e.carrier = some (t, k)) : e = .leaving t k := by
  cases e with
  | leaving u k' =>
      cases h
      rfl
  | none | released => nomatch h

/-- Its way in is at the thread that is on it. -/
theorem LifeOf.joining_of_pc {c : ServiceConf} {i : Sid} {l : Life} {e : Ending}
    (h : LifeOf c i l e) {t : Tid} {k : Joining} (hp : (c.pc t).joins = some (i, k)) :
    l = .joining t k :=
  Life.eq_of_carrier ((h.joins t k).mp hp)

/-- Its way out is at the thread that is on it. -/
theorem LifeOf.leaving_of_pc {c : ServiceConf} {i : Sid} {l : Life} {e : Ending}
    (h : LifeOf c i l e) {t : Tid} {k : Leaving} (hp : (c.pc t).leaves = some (i, k)) :
    e = .leaving t k :=
  Ending.eq_of_carrier ((h.leaves t k).mp hp)

/-- The thread `t` moves the session `i` on its way in. -/
theorem LifeOf.moveIn {c : ServiceConf} {i : Sid} {l' : Life} {e : Ending} {t : Tid}
    {k : Joining} (h : LifeOf c i (.joining t k) e) {sh : ServiceState} {p : ServicePc}
    (hcreated : sh.created = c.sh.created) (hborn : l' ≠ .unborn)
    (hself : ∀ k', p.joins = some (i, k') ↔ l'.carrier = some (t, k'))
    (hother : ∀ u k', l'.carrier = some (u, k') → u = t)
    (hleaves : p.leaves = (c.pc t).leaves)
    (hconn : sh.connected i = (l'.stored && e == .none)) (hstored : e ≠ .none → l'.stored = true)
    (hcalls : ∀ k', sh.log.count (.call k' i) = (made l' e k').toNat) :
    LifeOf (c.set t sh p) i l' e where
  born := by
    rw [ServiceConf.set_sh, hcreated]
    exact ⟨fun hl => absurd hl hborn, fun hlt => nomatch h.born.mpr hlt⟩
  joins := by
    refine carries_set h.joins hself fun u k' hu => ?_
    refine ⟨fun hc => absurd (hother u k' hc) hu, fun hc => ?_⟩
    cases hc
    exact absurd rfl hu
  leaves := by
    refine carries_set h.leaves (fun k' => ?_) fun _ _ _ => .rfl
    rw [hleaves]
    exact h.leaves t k'
  connected := hconn
  stored := hstored
  calls := hcalls

/-- The thread `t` moves the session `i` on its way out. -/
theorem LifeOf.moveOut {c : ServiceConf} {i : Sid} {l : Life} {e e' : Ending} {t : Tid}
    (h : LifeOf c i l e) {sh : ServiceState} {p : ServicePc}
    (hcreated : sh.created = c.sh.created)
    (hself : ∀ k, p.leaves = some (i, k) ↔ e'.carrier = some (t, k))
    (hother : ∀ u k, u ≠ t → (e'.carrier = some (u, k) ↔ e.carrier = some (u, k)))
    (hjoins : p.joins = (c.pc t).joins)
    (hconn : sh.connected i = (l.stored && e' == .none)) (hstored : l.stored = true)
    (hcalls : ∀ k, sh.log.count (.call k i) = (made l e' k).toNat) :
    LifeOf (c.set t sh p) i l e' where
  born := by rw [ServiceConf.set_sh, hcreated]; exact h.born
  joins := by
    refine carries_set h.joins (fun k => ?_) fun _ _ _ => .rfl
    rw [hjoins]
    exact h.joins t k
  leaves := carries_set h.leaves hself hother
  connected := hconn
  stored _ := hstored
  calls := hcalls

/-! ## 3. One step -/

/-- `_connected.store(true)` of the session that the thread brings in. -/
theorem LifeOf.store {c : ServiceConf} {i : Sid} {l : Life} {e : Ending} (h : LifeOf c i l e)
    {t : Tid} {k : ConnectCaller} {j : Sid} (hp : c.pc t = .connecting k j .store) :
    ∃ l' e', LifeOf (c.set t { c.sh with connected := Function.update c.sh.connected j true }
      (.connecting k j .acquire)) i l' e' := by
  by_cases hij : j = i
  · subst hij
    obtain rfl := h.joining_of_pc (t := t) (k := .accepted) (by rw [hp]; rfl)
    obtain rfl : e = .none := by
      by_contra hne
      nomatch h.stored hne
    refine ⟨.joining t .stored, .none, h.moveIn rfl nofun ?_ ?_ (by rw [hp]; rfl) ?_ ?_ ?_⟩
    · simp [ServicePc.joins, Life.carrier, eq_comm]
    · rintro u k' ⟨⟩
      rfl
    · simp [Life.stored]
    · exact fun hne => absurd rfl hne
    · intro k'
      refine (h.calls k').trans ?_
      cases k' <;> rfl
  · refine ⟨l, e, h.frame rfl ?_ (fun _ => rfl) ?_ ?_⟩
    · exact Function.update_of_ne (Ne.symm hij) _ _
    · simp [hp, ServicePc.joins, hij]
    · simp [hp, ServicePc.leaves]

/-- `AddSession` inserts the session. -/
theorem LifeOf.insert {c : ServiceConf} {i : Sid} {l : Life} {e : Ending} (h : LifeOf c i l e)
    {t : Tid} {k : ConnectCaller} {j : Sid} (hp : c.pc t = .connecting k j .insert) :
    ∃ l' e', LifeOf (c.set t { c.sh with
      sessions := Insert.insert j c.sh.sessions
      log := c.sh.log ++ [.call .addSession j] } (.connecting k j .count)) i l' e' := by
  by_cases hij : j = i
  · subst hij
    obtain rfl := h.joining_of_pc (t := t) (k := .stored) (by rw [hp]; rfl)
    refine ⟨.joining t .added, e, h.moveIn rfl nofun ?_ ?_ (by rw [hp]; rfl) h.connected
      (fun _ => rfl) ?_⟩
    · simp [ServicePc.joins, Life.carrier, eq_comm]
    · rintro u k' ⟨⟩
      rfl
    · exact h.calls_append fun k' => by cases k' <;> rfl
  · refine ⟨l, e, h.frame rfl rfl (fun k' => ?_) ?_ ?_⟩
    · simp [hij]
    · simp [hp, ServicePc.joins, hij]
    · simp [hp, ServicePc.leaves]

/-- `OnConnected()` is called. -/
theorem LifeOf.onConnected {c : ServiceConf} {i : Sid} {l : Life} {e : Ending}
    (h : LifeOf c i l e) {t : Tid} {k : ConnectCaller} {j : Sid}
    (hp : c.pc t = .connecting k j .callback) :
    ∃ l' e', LifeOf (c.set t { c.sh with log := c.sh.log ++ [.call .onConnected j] }
      (.registering (.processConnect k) j .check)) i l' e' := by
  by_cases hij : j = i
  · subst hij
    obtain rfl := h.joining_of_pc (t := t) (k := .added) (by rw [hp]; rfl)
    refine ⟨.up, e, h.moveIn rfl nofun ?_ ?_ (by rw [hp]; rfl) h.connected (fun _ => rfl) ?_⟩
    · simp [ServicePc.joins, Life.carrier]
    · rintro u k' ⟨⟩
    · exact h.calls_append fun k' => by cases k' <;> rfl
  · refine ⟨l, e, h.frame rfl rfl (fun k' => ?_) ?_ ?_⟩
    · simp [hij]
    · simp [hp, ServicePc.joins, hij]
    · simp [hp, ServicePc.leaves]

/-- A caller of `Disconnect` that returns carries no session. -/
theorem DisconnectCaller.joins_return (d : DisconnectCaller) : d.return.joins = none := by
  cases d <;> rfl

theorem DisconnectCaller.leaves_return (d : DisconnectCaller) : d.return.leaves = none := by
  cases d <;> rfl

/-- The exchange of a session that is not connected: only the refused session is laid down. -/
theorem LifeOf.exchangeIgnored {c : ServiceConf} {i : Sid} {l : Life} {e : Ending}
    (h : LifeOf c i l e) {t : Tid} {d : DisconnectCaller} {j : Sid}
    (hp : c.pc t = .disconnecting d j .exchange) (hdead : c.sh.connected j = false) :
    ∃ l' e', LifeOf (c.set t { c.sh with
      connected := Function.update c.sh.connected j false
      log := c.sh.log ++ [.ignored j] } d.return) i l' e' := by
  have hconn : Function.update c.sh.connected j false = c.sh.connected := by
    rw [← hdead, Function.update_eq_self]
  have hleaves : d.return.leaves = (c.pc t).leaves := by
    rw [hp, d.leaves_return]
    rfl
  by_cases hown : d = .accept ∧ j = i
  · obtain ⟨rfl, rfl⟩ := hown
    obtain rfl := h.joining_of_pc (t := t) (k := .accepted) (by rw [hp]; rfl)
    refine ⟨.refused, e, h.moveIn rfl nofun ?_ ?_ hleaves ?_ ?_ ?_⟩
    · simp [DisconnectCaller.return, ServicePc.joins, Life.carrier]
    · rintro u k' ⟨⟩
    · simp [Life.stored]
    · exact fun hne => absurd (h.stored hne) (by simp [Life.stored])
    · intro k'
      rw [count_ignored_append, h.calls k']
      cases k' <;> rfl
  · refine ⟨l, e, h.frame rfl (congrFun hconn i) (fun k' => ?_) (fun k' => ?_) fun k' => ?_⟩
    · exact count_ignored_append _ _ _ _
    · rw [hp, d.joins_return]
      cases d <;> simp_all [ServicePc.joins]
    · rw [hleaves]

/-- The exchange that finds the session connected begins its way out. -/
theorem LifeOf.exchange {c : ServiceConf} {i : Sid} {l : Life} {e : Ending} (h : LifeOf c i l e)
    {t : Tid} {d : DisconnectCaller} {j : Sid} (hp : c.pc t = .disconnecting d j .exchange)
    (hconn : c.sh.connected j = true) :
    ∃ l' e', LifeOf (c.set t { c.sh with
      connected := Function.update c.sh.connected j false
      log := c.sh.log ++ [.call .disconnect j] } (.disconnecting d j .close)) i l' e' := by
  by_cases hij : j = i
  · subst hij
    have hlife := h.connected
    rw [hconn] at hlife
    obtain ⟨hstored, hnone⟩ := Bool.and_eq_true_iff.mp hlife.symm
    obtain rfl : e = .none := by simpa using hnone
    -- the thread that refuses a session finds it not connected
    have haccept : d ≠ .accept := by
      rintro rfl
      obtain rfl := h.joining_of_pc (t := t) (k := .accepted) (by rw [hp]; rfl)
      nomatch hstored
    refine ⟨l, .leaving t .closing, h.moveOut rfl ?_ ?_ ?_ ?_ hstored ?_⟩
    · simp [ServicePc.leaves, Ending.carrier, eq_comm]
    · intro u k' hu
      simp [Ending.carrier, Ne.symm hu]
    · rw [hp]
      cases d with
      | accept => exact absurd rfl haccept
      | receive | write | other | close => rfl
    · simp
    · exact h.calls_append fun k' => by cases k' <;> rfl
  · refine ⟨l, e, h.frame rfl ?_ (fun k' => ?_) ?_ ?_⟩
    · exact Function.update_of_ne (Ne.symm hij) _ _
    · simp [hij]
    · rw [hp]
      cases d <;> simp [ServicePc.joins, hij]
    · simp [hp, ServicePc.leaves, hij]

/-- `OnDisconnected()` is called. -/
theorem LifeOf.onDisconnected {c : ServiceConf} {i : Sid} {l : Life} {e : Ending}
    (h : LifeOf c i l e) {t : Tid} {d : DisconnectCaller} {j : Sid}
    (hp : c.pc t = .disconnecting d j .callback) :
    ∃ l' e', LifeOf (c.set t { c.sh with log := c.sh.log ++ [.call .onDisconnected j] }
      (.disconnecting d j .acquire)) i l' e' := by
  have hjoins : (ServicePc.disconnecting d j .acquire).joins = (c.pc t).joins := by
    rw [hp]
    cases d <;> rfl
  by_cases hij : j = i
  · subst hij
    obtain rfl := h.leaving_of_pc (t := t) (k := .closing) (by rw [hp]; rfl)
    refine ⟨l, .leaving t .leaving, h.moveOut rfl ?_ ?_ hjoins h.connected (h.stored nofun) ?_⟩
    · simp [ServicePc.leaves, Ending.carrier, eq_comm]
    · intro u k' hu
      simp [Ending.carrier, Ne.symm hu]
    · exact h.calls_append fun k' => by cases k' <;> rfl
  · refine ⟨l, e, h.frame rfl rfl (fun k' => ?_) (fun _ => by rw [hjoins]) ?_⟩
    · simp [hij]
    · simp [hp, ServicePc.leaves, hij]

/-- `ReleaseSession` erases the session. -/
theorem LifeOf.erase {c : ServiceConf} {i : Sid} {l : Life} {e : Ending} (h : LifeOf c i l e)
    {t : Tid} {d : DisconnectCaller} {j : Sid} (hp : c.pc t = .disconnecting d j .erase) :
    ∃ l' e', LifeOf (c.set t { c.sh with
      sessions := c.sh.sessions.erase j
      log := c.sh.log ++ [.call .releaseSession j] } (.disconnecting d j .count)) i l' e' := by
  have hjoins : (ServicePc.disconnecting d j .count).joins = (c.pc t).joins := by
    rw [hp]
    cases d <;> rfl
  by_cases hij : j = i
  · subst hij
    obtain rfl := h.leaving_of_pc (t := t) (k := .leaving) (by rw [hp]; rfl)
    refine ⟨l, .released, h.moveOut rfl ?_ ?_ hjoins h.connected (h.stored nofun) ?_⟩
    · simp [ServicePc.leaves, Ending.carrier]
    · intro u k' hu
      simp [Ending.carrier, Ne.symm hu]
    · exact h.calls_append fun k' => by cases k' <;> rfl
  · refine ⟨l, e, h.frame rfl rfl (fun k' => ?_) (fun _ => by rw [hjoins]) ?_⟩
    · simp [hij]
    · simp [hp, ServicePc.leaves, hij]

theorem RecvCaller.joins_return (r : RecvCaller) : r.return.joins = none := by
  rcases r with (_ | _) | _ <;> rfl

theorem RecvCaller.leaves_return (r : RecvCaller) : r.return.leaves = none := by
  rcases r with (_ | _) | _ <;> rfl

theorem serviceStep_life {limit : Int} {c : ServiceConf} {i : Sid} {l : Life} {e : Ending}
    (h : LifeOf c i l e) {t : Tid} {sh : ServiceState} {q : ServicePc}
    (hs : serviceStep limit t c.sh (c.pc t) = some (sh, q)) :
    ∃ l' e', LifeOf (c.set t sh q) i l' e' := by
  generalize hp : c.pc t = p at hs
  cases serviceAction_of_step hs with
  | store => exact h.store hp
  | insert => exact h.insert hp
  | onConnected => exact h.onConnected hp
  | exchange d j hconn => exact h.exchange hp hconn
  | exchangeIgnored d j hdead => exact h.exchangeIgnored hp hdead
  | onDisconnected => exact h.onDisconnected hp
  | erase => exact h.erase hp
  | registerDead r | issueReceive r =>
      refine ⟨l, e, h.pass rfl rfl rfl ?_ ?_⟩
      · rw [hp, r.joins_return]
        rfl
      · rw [hp, r.leaves_return]
        rfl
  | close d | disconnectAcquire d | countDown d =>
      refine ⟨l, e, h.pass rfl rfl rfl ?_ (by rw [hp]; rfl)⟩
      rw [hp]
      cases d <;> rfl
  | disconnectRelease d =>
      refine ⟨l, e, h.pass rfl rfl rfl ?_ ?_⟩
      · rw [hp]
        cases d <;> rfl
      · rw [hp, d.leaves_return]
        rfl
  | _ => exact ⟨l, e, h.pass rfl rfl rfl (by rw [hp]; rfl) (by rw [hp]; rfl)⟩

/-- A session that has not started to connect has done nothing at all. -/
theorem LifeOf.unborn_eq {c : ServiceConf} {i : Sid} {l : Life} {e : Ending}
    (h : LifeOf c i l e) (hi : c.sh.created ≤ i) : l = .unborn ∧ e = .none := by
  have hl := h.born.mpr hi
  subst hl
  refine ⟨rfl, ?_⟩
  by_contra hne
  nomatch h.stored hne

/-- A session starts to connect on the idle thread `t`. -/
theorem LifeOf.begin {c : ServiceConf} {i : Sid} {l : Life} {e : Ending} (h : LifeOf c i l e)
    {t : Tid} {sh : ServiceState} {p : ServicePc} (hidle : c.pc t = .idle)
    (hcreated : sh.created = c.sh.created + 1) (hconn : sh.connected = c.sh.connected)
    (hlog : sh.log = c.sh.log) (hjoins : p.joins = some (c.sh.created, .accepted))
    (hleaves : p.leaves = none) : ∃ l' e', LifeOf (c.set t sh p) i l' e' := by
  have hleaves' : ∀ u k, ((c.set t sh p).pc u).leaves = some (i, k) ↔ e.carrier = some (u, k) := by
    refine carries_set h.leaves (fun k => ?_) fun _ _ _ => .rfl
    rw [hleaves, ← h.leaves t k, hidle]
    exact .rfl
  by_cases hi : i = c.sh.created
  · subst hi
    obtain ⟨rfl, rfl⟩ := h.unborn_eq (le_refl _)
    refine ⟨.joining t .accepted, .none, ⟨?_, ?_, hleaves', ?_, fun hne => absurd rfl hne, ?_⟩⟩
    · rw [ServiceConf.set_sh, hcreated]
      exact ⟨nofun, fun hle => absurd hle (by omega)⟩
    · refine carries_set h.joins (fun k => ?_) fun u k hu => ?_
      · rw [hjoins]
        simp [Life.carrier]
      · simp [Life.carrier, Ne.symm hu]
    · rw [ServiceConf.set_sh, hconn]
      exact h.connected
    · intro k
      rw [ServiceConf.set_sh, hlog, h.calls k]
      cases k <;> rfl
  · refine ⟨l, e, ⟨?_, ?_, hleaves', ?_, h.stored, ?_⟩⟩
    · rw [ServiceConf.set_sh, hcreated, h.born]
      exact ⟨fun hle => Nat.lt_of_le_of_ne hle (Ne.symm hi), Nat.le_of_lt⟩
    · refine carries_set h.joins (fun k => ?_) fun _ _ _ => .rfl
      rw [← h.joins t k, hidle, hjoins]
      simp [ServicePc.joins, Ne.symm hi]
    · rw [ServiceConf.set_sh, hconn]
      exact h.connected
    · intro k
      rw [ServiceConf.set_sh, hlog]
      exact h.calls k

/-- An idle thread starts with a session that is connecting or not at all. -/
theorem LifeOf.start {c : ServiceConf} {i : Sid} {l : Life} {e : Ending} (h : LifeOf c i l e)
    {t : Tid} {sh : ServiceState} {p : ServicePc} (hidle : c.pc t = .idle)
    (hcreated : sh.created = c.sh.created) (hconn : sh.connected = c.sh.connected)
    (hlog : sh.log = c.sh.log) (hjoins : p.joins = none) (hleaves : p.leaves = none) :
    ∃ l' e', LifeOf (c.set t sh p) i l' e' :=
  ⟨l, e, h.pass hcreated hconn hlog (by rw [hidle, hjoins]; rfl) (by rw [hidle, hleaves]; rfl)⟩

theorem LifeOf.step {limit : Int} {c c' : ServiceConf} {lab : ServiceLabel} {i : Sid} {l : Life}
    {e : Ending} (h : LifeOf c i l e) (hs : c.next limit lab = some c') :
    ∃ l' e', LifeOf c' i l' e' := by
  cases serviceStepped_of_next hs with
  | acceptError t ha hidle => exact h.start hidle rfl rfl rfl rfl rfl
  | accept t ha hidle => exact h.begin hidle rfl rfl rfl rfl rfl
  | connect t hidle => exact h.begin hidle rfl rfl rfl rfl rfl
  | receive t j o hr hidle => exact h.start hidle rfl rfl rfl rfl rfl
  | write t j o hw hidle => exact h.start hidle rfl rfl rfl rfl rfl
  | hold j source ha => exact ⟨l, e, h.born, h.joins, h.leaves, h.connected, h.stored, h.calls⟩
  | drop j hh => exact ⟨l, e, h.born, h.joins, h.leaves, h.connected, h.stored, h.calls⟩
  | send t j hh hidle | disconnect t j hh hidle | closeService t hidle =>
      exact h.start hidle rfl rfl rfl rfl rfl
  | visit t j visited hp hv hj hnew =>
      exact ⟨l, e, h.pass rfl rfl rfl (by rw [hp]; rfl) (by rw [hp]; rfl)⟩
  | run t sh p hrun => exact serviceStep_life h hrun

theorem lifeOf_started (server : Bool) (i : Sid) :
    LifeOf (.started server) i .unborn .none where
  born := by simp [ServiceConf.started, ServiceState.fresh]
  joins u k := by
    unfold ServiceConf.started
    dsimp only
    split <;> simp [ServicePc.joins, Life.carrier]
  leaves u k := by
    unfold ServiceConf.started
    dsimp only
    split <;> simp [ServicePc.leaves, Ending.carrier]
  connected := rfl
  stored hne := absurd rfl hne
  calls k := by cases k <;> rfl

/-- **Every session has a life**, on every run. -/
theorem lifeOf_of_reach {limit : Int} {ok : ServiceConf → ServiceLabel → Prop} {server : Bool}
    {c : ServiceConf} (hr : Reach (ServiceConf.next limit) ok (.started server) c) (i : Sid) :
    ∃ l e, LifeOf c i l e := by
  refine hr.invariant (I := fun c => ∃ l e, LifeOf c i l e) ⟨_, _, lifeOf_started server i⟩ ?_
  rintro c c' lab ⟨l, e, h⟩ - hs
  exact h.step hs

end ServerCore
