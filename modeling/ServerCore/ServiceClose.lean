/-
  File:      ServerCore/ServiceClose.lean
  Subject:   The loop of `CloseService` over `_sessions`, from the acquisition of `_lock` on.

  `Disconnect` of a session that is still connected comes back to the service, which erases the
  session from the set the loop stands on: the iterator the loop goes on from is not valid. So the
  loop does what it is for only where it has nothing to do (`closeService_law`): every session of
  the set has been disconnected by another thread, whose `ReleaseSession` waits for the lock, and
  `_sessionCount`, which the loop does not touch, is 0 already. While it runs only its own thread
  changes the set and the count (`held_frame`).
-/
import ServerCore.ServiceOwner

namespace ServerCore

open Trans

/-! ## 1. The thread inside the lock -/

theorem ServicePc.disconnecting_ne_idle (d : DisconnectCaller) (i : Sid) (p : DisconnectPc) :
    ServicePc.disconnecting d i p ≠ .idle := by simp

theorem ServicePc.closing_ne_idle (visited : List Sid) (p : ClosePc) :
    ServicePc.closing visited p ≠ .idle := by simp

/-- A thread changes the count inside the lock. -/
theorem serviceStep_count_or_held {limit : Int} {t : Tid} {s s' : ServiceState}
    {p q : ServicePc} (h : serviceStep limit t s p = some (s', q)) :
    s'.sessionCount = s.sessionCount ∨ 0 < p.held := by
  cases serviceAction_of_step h with
  | countUp k i => exact .inr Nat.one_pos
  | countDown d i => exact .inr (Nat.succ_pos _)
  | _ => exact .inl rfl

/-- A step of the thread's own: its next action, or the next session of its loop. -/
def OwnStep (t : Tid) (_ : ServiceConf) (l : ServiceLabel) : Prop :=
  l = .run t ∨ ∃ i, l = .visit t i

/-- **While a thread holds the lock**, what is not a step of its own leaves its counter, the set
    and the count alone. -/
theorem held_frame {limit : Int} {c c' : ServiceConf} {l : ServiceLabel} (hlock : ServiceLock c)
    {t : Tid} (ht : 0 < (c.pc t).held) (h : c.next limit l = some c') :
    OwnStep t c l ∨ (c'.pc t = c.pc t ∧ c'.sh.sessions = c.sh.sessions ∧
      c'.sh.sessionCount = c.sh.sessionCount) := by
  have hbusy : ∀ u, c.pc u = .idle → t ≠ u := by
    rintro u hidle rfl
    rw [hidle] at ht
    exact Nat.lt_irrefl 0 ht
  cases serviceStepped_of_next h with
  | acceptError u ha hidle | accept u ha hidle | connect u hidle | receive u i o hr hidle
  | write u i o hw hidle | send u i hh hidle | disconnect u i hh hidle | closeService u hidle =>
      exact .inr ⟨c.set_pc_of_ne _ _ (hbusy u hidle), rfl, rfl⟩
  | hold i source hs | drop i hh => exact .inr ⟨rfl, rfl, rfl⟩
  | visit u i visited hp hv hi hnew =>
      by_cases hu : t = u
      · subst hu
        exact .inl (.inr ⟨i, rfl⟩)
      · exact .inr ⟨c.set_pc_of_ne _ _ hu, rfl, rfl⟩
  | run u sh p hs =>
      by_cases hu : t = u
      · subst hu
        exact .inl (.inl rfl)
      · refine .inr ⟨c.set_pc_of_ne _ _ hu, ?_, ?_⟩
        · rcases (serviceStep_move hs).set_or_held with hset | hheld
          · exact hset
          · exact absurd (hlock.unique ht hheld) hu
        · rcases serviceStep_count_or_held hs with hcount | hheld
          · exact hcount
          · exact absurd (hlock.unique ht hheld) hu

/-! ## 2. What the loop is for -/

/-- The thread has not returned yet. -/
def Inside (t : Tid) (c : ServiceConf) (_ : ServiceLabel) : Prop := c.pc t ≠ .idle

instance (t : Tid) (c : ServiceConf) (l : ServiceLabel) : Decidable (Inside t c l) :=
  inferInstanceAs (Decidable (c.pc t ≠ .idle))

/-- **The loop that thread `t` enters in `c` does what it is for**, whatever other threads do
    meanwhile: it never goes on from a session that has been erased; where it leaves, it has
    visited every session of the set once, each has been disconnected once, the set is empty and
    the count is 0; and its own steps always lead there. -/
structure ClosesWell (limit : Int) (t : Tid) (c : ServiceConf) : Prop where
  valid : ∀ c', Reach (ServiceConf.next limit) (Inside t) c c' → ∀ visited,
    c'.pc t = .closing visited .next → validIterator c'.sh visited = true
  closed : ∀ c', Reach (ServiceConf.next limit) (Inside t) c c' → ∀ visited,
    c'.pc t = .closing visited .release →
    c'.sh.sessions = ∅ ∧ c'.sh.sessionCount = 0 ∧
      ∀ i ∈ c.sh.sessions, visited.count i = 1 ∧ c'.sh.log.count (.call .disconnect i) = 1
  returns : ∀ c', Reach (ServiceConf.next limit) (Inside t) c c' → c'.pc t ≠ .idle →
    ∃ c'' visited, Reach (ServiceConf.next limit) (OwnStep t) c' c'' ∧
      c''.pc t = .closing visited .release

/-! ## 3. A set that others have disconnected -/

/-- Where the loop is that finds every session of `S` disconnected: the set is still `S`, and the
    sessions visited are different ones of it. -/
inductive ClosePlace (S : Finset Sid) (s : ServiceState) : ServicePc → Prop where
  | next (visited : List Sid) (hset : s.sessions = S) (hnodup : visited.Nodup)
      (hsub : ∀ i ∈ visited, i ∈ S) : ClosePlace S s (.closing visited .next)
  | exchange (i : Sid) (visited : List Sid) (hset : s.sessions = S)
      (hnodup : (i :: visited).Nodup) (hsub : ∀ j ∈ i :: visited, j ∈ S) :
      ClosePlace S s (.disconnecting (.close (i :: visited)) i .exchange)
  | clear (visited : List Sid) (hnodup : visited.Nodup) (hall : ∀ i ∈ S, i ∈ visited) :
      ClosePlace S s (.closing visited .clear)
  | release (visited : List Sid) (hset : s.sessions = ∅) (hnodup : visited.Nodup)
      (hall : ∀ i ∈ S, i ∈ visited) : ClosePlace S s (.closing visited .release)
  | returned : ClosePlace S s .idle

/-- The loop holds the lock until it returns. -/
theorem ClosePlace.held {S : Finset Sid} {s : ServiceState} {p : ServicePc}
    (h : ClosePlace S s p) (hp : p ≠ .idle) : 0 < p.held := by
  cases h with
  | next | exchange | clear | release => exact Nat.one_pos
  | returned => exact absurd rfl hp

/-- The place depends on the set only. -/
theorem ClosePlace.congr {S : Finset Sid} {s s' : ServiceState} {p : ServicePc}
    (h : ClosePlace S s p) (hset : s'.sessions = s.sessions) : ClosePlace S s' p := by
  cases h with
  | next visited hs hnodup hsub => exact .next visited (hset.trans hs) hnodup hsub
  | exchange i visited hs hnodup hsub => exact .exchange i visited (hset.trans hs) hnodup hsub
  | clear visited hnodup hall => exact .clear visited hnodup hall
  | release visited hs hnodup hall => exact .release visited (hset.trans hs) hnodup hall
  | returned => exact .returned

/-- **The loop over disconnected sessions**, in a configuration it has reached: the sessions of
    `S` are dead, and the count is what it was. -/
structure ClosesDead (S : Finset Sid) (n : Int) (t : Tid) (c : ServiceConf) : Prop where
  lock : ServiceLock c
  life : ∀ i, ∃ l e, LifeOf c i l e
  dead : ∀ i ∈ S, c.sh.dead i
  place : ClosePlace S c.sh (c.pc t)
  count : c.pc t ≠ .idle → c.sh.sessionCount = n

/-- The thread's next action inside the loop. -/
theorem ClosesDead.run {limit : Int} {S : Finset Sid} {n : Int} {t : Tid} {c : ServiceConf}
    (hI : ClosesDead S n t c) {sh : ServiceState} {q : ServicePc}
    (hs : serviceStep limit t c.sh (c.pc t) = some (sh, q)) :
    ClosePlace S sh q ∧ sh.sessionCount = c.sh.sessionCount := by
  have hplace := hI.place
  generalize c.pc t = p at hplace hs
  cases hplace with
  | next visited hset hnodup hsub =>
      cases serviceAction_of_step hs with
      | sweep _ hv hall => exact ⟨.clear visited hnodup (hset ▸ hall), rfl⟩
  | exchange i visited hset hnodup hsub =>
      cases serviceAction_of_step hs with
      | exchange _ _ hconn =>
          rw [(hI.dead i (hsub i List.mem_cons_self)).2] at hconn
          nomatch hconn
      | exchangeIgnored => exact ⟨.next (i :: visited) hset hnodup hsub, rfl⟩
  | clear visited hnodup hall =>
      cases serviceAction_of_step hs with
      | clear => exact ⟨.release visited rfl hnodup hall, rfl⟩
  | release visited hset hnodup hall =>
      cases serviceAction_of_step hs with
      | closeRelease => exact ⟨.returned, rfl⟩
  | returned => nomatch hs

/-- **One step**, of the loop's own thread or of another, while the loop runs. -/
theorem ClosesDead.step {limit : Int} {S : Finset Sid} {n : Int} {t : Tid} {c c' : ServiceConf}
    {l : ServiceLabel} (hI : ClosesDead S n t c) (hin : c.pc t ≠ .idle)
    (h : c.next limit l = some c') : ClosesDead S n t c' := by
  have hnext : ClosePlace S c'.sh (c'.pc t) ∧ c'.sh.sessionCount = c.sh.sessionCount := by
    rcases held_frame hI.lock (hI.place.held hin) h with (rfl | ⟨i, rfl⟩) | ⟨hpc, hset, hcount⟩
    · cases serviceStepped_of_next h with
      | run _ sh p hs =>
          rw [ServiceConf.set_pc_self, ServiceConf.set_sh]
          exact hI.run hs
    · cases serviceStepped_of_next h with
      | visit _ _ visited hp hv hi hnew =>
          have hplace := hI.place
          rw [hp] at hplace
          cases hplace with
          | next _ hset hnodup hsub =>
              rw [ServiceConf.set_pc_self, ServiceConf.set_sh]
              refine ⟨.exchange i visited hset (List.nodup_cons.mpr ⟨hnew, hnodup⟩) ?_, rfl⟩
              exact List.forall_mem_cons.mpr ⟨hset ▸ hi, hsub⟩
    · rw [hpc]
      exact ⟨hI.place.congr hset, hcount⟩
  refine ⟨hI.lock.step h, fun i => ?_, fun i hi => dead_step (hI.life i) h (hI.dead i hi),
    hnext.1, fun _ => hnext.2.trans (hI.count hin)⟩
  obtain ⟨l, e, hl⟩ := hI.life i
  exact hl.step h

/-- All that the loop reaches, whatever others do. -/
theorem ClosesDead.reach {limit : Int} {S : Finset Sid} {n : Int} {t : Tid} {c c' : ServiceConf}
    (hI : ClosesDead S n t c) (hr : Reach (ServiceConf.next limit) (Inside t) c c') :
    ClosesDead S n t c' :=
  hr.invariant (I := ClosesDead S n t) hI fun _ _ _ hI hin h => hI.step hin h

/-- At the head of its loop: the set is all there, and what was visited is part of it. -/
theorem ClosesDead.at_next {S : Finset Sid} {n : Int} {t : Tid} {c : ServiceConf}
    (hI : ClosesDead S n t c) {visited : List Sid} (hp : c.pc t = .closing visited .next) :
    c.sh.sessions = S ∧ visited.Nodup ∧ ∀ i ∈ visited, i ∈ S := by
  have hplace := hI.place
  rw [hp] at hplace
  cases hplace with
  | next _ hset hnodup hsub => exact ⟨hset, hnodup, hsub⟩

/-- The loop never stands on a session that is gone. -/
theorem ClosesDead.valid {S : Finset Sid} {n : Int} {t : Tid} {c : ServiceConf}
    (hI : ClosesDead S n t c) {visited : List Sid} (hp : c.pc t = .closing visited .next) :
    validIterator c.sh visited = true := by
  obtain ⟨hset, -, hsub⟩ := hI.at_next hp
  cases visited with
  | nil => rfl
  | cons i visited =>
      rw [validIterator, hset]
      exact decide_eq_true (hsub i List.mem_cons_self)

/-! ## 4. The loop ends -/

/-- The thread's own action, as a run of its own. -/
theorem reach_own {limit : Int} {t : Tid} {c : ServiceConf} {sh : ServiceState} {q : ServicePc}
    (h : serviceStep limit t c.sh (c.pc t) = some (sh, q)) :
    Reach (ServiceConf.next limit) (OwnStep t) c (c.set t sh q) :=
  .step c _ (.run t) .start (.inl rfl) (by rw [ServiceConf.next, h]; rfl)

/-- A run of the loop's own steps that does not return is one inside the loop. -/
theorem ClosesDead.own_reach {limit : Int} {S : Finset Sid} {n : Int} {t : Tid}
    {c : ServiceConf} (hI : ClosesDead S n t c) {sh : ServiceState} {q : ServicePc}
    (hin : c.pc t ≠ .idle) (h : serviceStep limit t c.sh (c.pc t) = some (sh, q)) :
    ClosesDead S n t (c.set t sh q) :=
  hI.step (l := .run t) hin (by rw [ServiceConf.next, h]; rfl)

/-- From `clear` the loop's own steps lead to its end. -/
theorem returns_of_clear (limit : Int) {t : Tid} {c : ServiceConf} {visited : List Sid}
    (hp : c.pc t = .closing visited .clear) :
    ∃ c', Reach (ServiceConf.next limit) (OwnStep t) c c' ∧ c'.pc t = .closing visited .release :=
  ⟨_, reach_own (by rw [hp]; rfl), ServiceConf.set_pc_self _ _ _ _⟩

/-- From the head of its loop, with all visited, too. -/
theorem returns_of_sweep {limit : Int} {t : Tid} {c : ServiceConf} {visited : List Sid}
    (hp : c.pc t = .closing visited .next) (hv : validIterator c.sh visited = true)
    (hall : ∀ i ∈ c.sh.sessions, i ∈ visited) :
    ∃ c' visited', Reach (ServiceConf.next limit) (OwnStep t) c c' ∧
      c'.pc t = .closing visited' .release := by
  have hsweep : serviceStep limit t c.sh (c.pc t) = some (c.sh, .closing visited .clear) := by
    rw [hp]
    exact if_pos ⟨hv, hall⟩
  obtain ⟨c', hr, hp'⟩ := returns_of_clear limit
    (ServiceConf.set_pc_self c t c.sh (.closing visited .clear))
  exact ⟨c', visited, (reach_own hsweep).trans hr, hp'⟩

/-- `Disconnect` of a session that is not connected returns at once. -/
theorem exchange_dead (limit : Int) (t : Tid) {s : ServiceState} (d : DisconnectCaller) {i : Sid}
    (hdead : s.connected i = false) :
    serviceStep limit t s (.disconnecting d i .exchange) =
      some ({ s with
        connected := Function.update s.connected i false
        log := s.log ++ [.ignored i] }, d.return) := by
  simp only [serviceStep, disconnectStep, hdead]
  rfl

/-- Sessions of the set that have been visited, and one that has not. -/
theorem length_lt_of_new {S : Finset Sid} {visited : List Sid} (hnodup : visited.Nodup)
    (hsub : ∀ i ∈ visited, i ∈ S) {i : Sid} (hi : i ∈ S) (hnew : i ∉ visited) :
    visited.length < S.card := by
  have hcons : (i :: visited).Nodup := List.nodup_cons.mpr ⟨hnew, hnodup⟩
  have hle : (i :: visited).toFinset.card ≤ S.card := by
    refine Finset.card_le_card fun j hj => ?_
    rcases List.mem_cons.mp (List.mem_toFinset.mp hj) with rfl | hj
    · exact hi
    · exact hsub j hj
  rwa [List.toFinset_card_of_nodup hcons] at hle

/-- From its head, with `k` sessions to come at most, the loop's own steps lead to its end. -/
theorem ClosesDead.returns_next {limit : Int} {S : Finset Sid} {n : Int} {t : Tid} (k : Nat) :
    ∀ {c : ServiceConf} {visited : List Sid}, ClosesDead S n t c →
      c.pc t = .closing visited .next → S.card ≤ visited.length + k →
      ∃ c' visited', Reach (ServiceConf.next limit) (OwnStep t) c c' ∧
        c'.pc t = .closing visited' .release := by
  induction k with
  | zero =>
      intro c visited hI hp hcard
      obtain ⟨hset, hnodup, hsub⟩ := hI.at_next hp
      have hall : ∀ i ∈ c.sh.sessions, i ∈ visited := by
        intro i hi
        by_contra hnew
        have := length_lt_of_new hnodup hsub (hset ▸ hi) hnew
        omega
      exact returns_of_sweep hp (hI.valid hp) hall
  | succ k ih =>
      intro c visited hI hp hcard
      obtain ⟨hset, hnodup, hsub⟩ := hI.at_next hp
      by_cases hall : ∀ i ∈ c.sh.sessions, i ∈ visited
      · exact returns_of_sweep hp (hI.valid hp) hall
      · push Not at hall
        obtain ⟨i, hi, hnew⟩ := hall
        -- the loop comes to `i`, finds it disconnected and goes on
        have hvisit : c.next limit (.visit t i) =
            some (c.set t c.sh (.disconnecting (.close (i :: visited)) i .exchange)) := by
          simp only [ServiceConf.next, hp]
          exact if_pos ⟨hI.valid hp, hi, hnew⟩
        have hI₁ := hI.step (by rw [hp]; exact ServicePc.closing_ne_idle _ _) hvisit
        have hexchange := exchange_dead limit t (.close (i :: visited)) (hI.dead i (hset ▸ hi)).2
        have hI₂ := hI₁.own_reach
          (by rw [ServiceConf.set_pc_self]; exact ServicePc.disconnecting_ne_idle _ _ _)
          (by rw [ServiceConf.set_pc_self]; exact hexchange)
        obtain ⟨c', visited', hr, hp'⟩ := ih hI₂
          (ServiceConf.set_pc_self _ _ _ _) (by rw [List.length_cons]; omega)
        have hfirst : Reach (ServiceConf.next limit) (OwnStep t) c _ :=
          .step c _ (.visit t i) .start (.inr ⟨i, rfl⟩) hvisit
        exact ⟨c', visited', (hfirst.trans (reach_own (by
          rw [ServiceConf.set_pc_self]
          exact hexchange))).trans hr, hp'⟩

/-- **From wherever it is, the loop's own steps lead to its end.** -/
theorem ClosesDead.returns (limit : Int) {S : Finset Sid} {n : Int} {t : Tid} {c : ServiceConf}
    (hI : ClosesDead S n t c) (hin : c.pc t ≠ .idle) :
    ∃ c' visited, Reach (ServiceConf.next limit) (OwnStep t) c c' ∧
      c'.pc t = .closing visited .release := by
  have hplace := hI.place
  generalize hp : c.pc t = p at hplace
  cases hplace with
  | next visited hset hnodup hsub => exact hI.returns_next S.card hp (Nat.le_add_left _ _)
  | exchange i visited hset hnodup hsub =>
      have hexchange := exchange_dead limit t (.close (i :: visited))
        (hI.dead i (hsub i List.mem_cons_self)).2
      rw [← hp] at hexchange
      obtain ⟨c', visited', hr, hp'⟩ := (hI.own_reach hin hexchange).returns_next S.card
        (ServiceConf.set_pc_self _ _ _ _) (Nat.le_add_left _ _)
      exact ⟨c', visited', (reach_own hexchange).trans hr, hp'⟩
  | clear visited hnodup hall =>
      obtain ⟨c', hr, hp'⟩ := returns_of_clear limit hp
      exact ⟨c', visited, hr, hp'⟩
  | release visited hset hnodup hall => exact ⟨c, visited, .start, hp⟩
  | returned => exact absurd hp hin

/-- Where the loop ends, it has come to every session of the set once. -/
theorem ClosesDead.at_release {S : Finset Sid} {n : Int} {t : Tid} {c : ServiceConf}
    (hI : ClosesDead S n t c) {visited : List Sid} (hp : c.pc t = .closing visited .release) :
    c.sh.sessions = ∅ ∧ c.sh.sessionCount = n ∧ ∀ i ∈ S, visited.count i = 1 := by
  have hplace := hI.place
  have hcount := hI.count (by rw [hp]; exact ServicePc.closing_ne_idle _ _)
  rw [hp] at hplace
  cases hplace with
  | release _ hset hnodup hall =>
      exact ⟨hset, hcount, fun i hi => List.count_eq_one_of_mem hnodup (hall i hi)⟩

/-! ## 5. When the loop does what it is for -/

/-- A session that is dead has been disconnected once. -/
theorem LifeOf.count_disconnect {c : ServiceConf} {i : Sid} {l : Life} {e : Ending}
    (h : LifeOf c i l e) (hdead : c.sh.dead i) : c.sh.log.count (.call .disconnect i) = 1 := by
  have hmem := (h.mem _).mp (h.disconnected hdead.1 hdead.2)
  rw [h.calls, hmem]
  rfl

/-- The loop is entered where every session of the set has been disconnected. -/
theorem ClosesDead.enter {limit : Int} {server : Bool} {t : Tid} {c : ServiceConf}
    (hr : Reach (ServiceConf.next limit) always (.started server) c)
    (hp : c.pc t = .closing [] .next) (hoff : ∀ i ∈ c.sh.sessions, c.sh.connected i = false) :
    ClosesDead c.sh.sessions c.sh.sessionCount t c := by
  refine ⟨ServiceLock.of_reach hr, lifeOf_of_reach hr, fun i hi => ?_, ?_, fun _ => rfl⟩
  · exact ⟨(members_of_reach hr).added i hi, hoff i hi⟩
  · rw [hp]
    exact .next [] rfl List.nodup_nil (List.forall_mem_nil _)

/-- The thread's next action, inside the loop. -/
theorem reach_inside {limit : Int} {t : Tid} {c c₀ : ServiceConf} {sh sh' : ServiceState}
    {p p' : ServicePc} (hr : Reach (ServiceConf.next limit) (Inside t) c (c₀.set t sh p))
    (hp : p ≠ .idle) (h : serviceStep limit t sh p = some (sh', p')) :
    Reach (ServiceConf.next limit) (Inside t) c (c₀.set t sh' p') := by
  refine .step _ _ (.run t) hr ?_ (ServiceConf.next_set_run h)
  unfold Inside
  rwa [ServiceConf.set_pc_self]

/-- **`Disconnect` of a connected session takes it out of the set the loop stands on.** -/
theorem reach_invalid (limit : Int) {t : Tid} {c : ServiceConf} (hlock : ServiceLock c)
    (hp : c.pc t = .closing [] .next) {i : Sid} (hi : i ∈ c.sh.sessions)
    (hconn : c.sh.connected i = true) :
    ∃ c', Reach (ServiceConf.next limit) (Inside t) c c' ∧ c'.pc t = .closing [i] .next ∧
      validIterator c'.sh [i] = false := by
  -- the lock is held already: `ReleaseSession` takes it once more
  obtain ⟨m, hm⟩ : ∃ m, Mutex.acquire .reentrant c.sh.lock t = some m := by
    refine Mutex.acquire_reentrant_of_held ?_
    rw [hlock t]
    dsimp only
    rw [hp]
    exact Nat.one_pos
  have hvisit : Reach (ServiceConf.next limit) (Inside t) c
      (c.set t c.sh (.disconnecting (.close [i]) i .exchange)) := by
    refine .step c _ (.visit t i) .start
      (by unfold Inside; rw [hp]; exact ServicePc.closing_ne_idle _ _) ?_
    simp only [ServiceConf.next, hp]
    exact if_pos ⟨rfl, hi, List.not_mem_nil⟩
  have hexchange : Reach (ServiceConf.next limit) (Inside t) c (c.set t
      { c.sh with
        connected := Function.update c.sh.connected i false
        log := c.sh.log ++ [.call .disconnect i] } (.disconnecting (.close [i]) i .close)) := by
    refine reach_inside hvisit (ServicePc.disconnecting_ne_idle _ _ _) ?_
    simp only [serviceStep, disconnectStep, hconn]
    rfl
  have hclose := reach_inside hexchange (ServicePc.disconnecting_ne_idle _ _ _) rfl
  have hcallback := reach_inside hclose (ServicePc.disconnecting_ne_idle _ _ _) rfl
  have hacquire : Reach (ServiceConf.next limit) (Inside t) c (c.set t
      { c.sh with
        connected := Function.update c.sh.connected i false
        log := c.sh.log ++ [.call .disconnect i] ++ [.call .onDisconnected i]
        lock := m } (.disconnecting (.close [i]) i .erase)) := by
    refine reach_inside hcallback (ServicePc.disconnecting_ne_idle _ _ _) ?_
    simp only [serviceStep, disconnectStep, hm]
    rfl
  have herase := reach_inside hacquire (ServicePc.disconnecting_ne_idle _ _ _) rfl
  have hcount := reach_inside herase (ServicePc.disconnecting_ne_idle _ _ _) rfl
  have hrelease := reach_inside hcount (ServicePc.disconnecting_ne_idle _ _ _) rfl
  refine ⟨_, hrelease, ServiceConf.set_pc_self _ _ _ _, decide_eq_false ?_⟩
  exact Finset.notMem_erase _ _

/-- The loop's own steps are steps inside it. -/
theorem inside_of_own {limit : Int} {t : Tid} {c c' : ServiceConf}
    (hr : Reach (ServiceConf.next limit) (OwnStep t) c c') :
    Reach (ServiceConf.next limit) (Inside t) c c' := by
  induction hr with
  | start => exact .start
  | step c₁ c₂ l _ hok hs ih =>
      refine .step c₁ c₂ l ih (fun hidle => ?_) hs
      rcases hok with rfl | ⟨i, rfl⟩ <;>
        simp [ServiceConf.next, hidle, serviceStep] at hs

/-- Where the set agrees with the calls made, the count a thread finds that enters the loop is the
    size of the set. -/
theorem count_eq_card_of_next {c : ServiceConf} (hlock : ServiceLock c) (hcount : Counted c)
    (hset : Settled c) {t : Tid} (hp : c.pc t = .closing [] .next) :
    c.sh.sessionCount = c.sh.sessions.card := by
  have hothers : ∀ u, u ≠ t → (c.pc u).drift = 0 := by
    intro u hu
    by_contra hne
    exact hu (hlock.unique (ServicePc.held_of_drift hne) (by rw [hp]; exact Nat.one_pos))
  have hsettled := hcount t hothers
  rw [hp] at hsettled
  unfold settledCount at hsettled
  rw [hset.size] at hsettled
  simp only [ServicePc.drift] at hsettled
  omega

/-- **When `CloseService` does what it is for.** The thread has taken `_lock` and enters the loop:
    the loop goes well exactly where every session of the set has been disconnected by another
    thread and the count is 0; so, where the set agrees with the calls made, exactly where the set
    is empty. -/
theorem closeService_law (limit : Int) (server : Bool) (t : Tid) (c : ServiceConf)
    (hr : Reach (ServiceConf.next limit) always (.started server) c)
    (hp : c.pc t = .closing [] .next) :
    (ClosesWell limit t c ↔
      (∀ i ∈ c.sh.sessions, c.sh.connected i = false) ∧ c.sh.sessionCount = 0) ∧
    (Settled c → (ClosesWell limit t c ↔ c.sh.sessions = ∅)) := by
  have hlock := ServiceLock.of_reach hr
  have hiff : ClosesWell limit t c ↔
      (∀ i ∈ c.sh.sessions, c.sh.connected i = false) ∧ c.sh.sessionCount = 0 := by
    constructor
    · intro hwell
      have hoff : ∀ i ∈ c.sh.sessions, c.sh.connected i = false := by
        intro i hi
        by_contra hconn
        obtain ⟨c', hr', hp', hinvalid⟩ := reach_invalid limit hlock hp hi
          (by simpa using hconn)
        rw [hwell.valid c' hr' [i] hp'] at hinvalid
        nomatch hinvalid
      refine ⟨hoff, ?_⟩
      -- the loop comes to its end with the count it found
      have hI := ClosesDead.enter hr hp hoff
      obtain ⟨c', visited, hown, hp'⟩ := hI.returns limit
        (by rw [hp]; exact ServicePc.closing_ne_idle _ _)
      have hin := inside_of_own hown
      exact (hI.reach hin).at_release hp' |>.2.1.symm.trans (hwell.closed c' hin visited hp').2.1
    · rintro ⟨hoff, hzero⟩
      have hI := ClosesDead.enter hr hp hoff
      refine ⟨fun c' hr' visited hp' => (hI.reach hr').valid hp', fun c' hr' visited hp' => ?_,
        fun c' hr' hin => (hI.reach hr').returns limit hin⟩
      obtain ⟨hset, hcount, hvisited⟩ := (hI.reach hr').at_release hp'
      refine ⟨hset, hcount.trans hzero, fun i hi => ⟨hvisited i hi, ?_⟩⟩
      obtain ⟨l, e, hl⟩ := (hI.reach hr').life i
      exact hl.count_disconnect ((hI.reach hr').dead i hi)
  refine ⟨hiff, fun hset => ?_⟩
  have hcard := count_eq_card_of_next hlock (counted_of_reach hr) hset hp
  rw [hiff]
  constructor
  · rintro ⟨-, hzero⟩
    exact Finset.card_eq_zero.mp (by omega)
  · intro hempty
    refine ⟨fun i hi => ?_, ?_⟩
    · rw [hempty] at hi
      cases hi
    · rw [hcard, hempty]
      rfl

/-- A client's session is disconnected by other code, whose `ReleaseSession` waits, while thread 2
    enters the loop; and the service nobody has connected to. -/
theorem closeService_law_runs :
    (∃ c, Reach (ServiceConf.next 1) always (.started true) c ∧ c.sh.sessions = {0} ∧
      ¬ ClosesWell 1 2 c) ∧
    ∃ c, Reach (ServiceConf.next 1) always (.started true) c ∧ ClosesWell 1 2 c := by
  have hbusy : Reach (ServiceConf.next 1) always (.started true) _ :=
    .of_exec (clientRun ++ [.hold 0 .set, .disconnect 1 0, .run 1, .closeService 2, .run 2]) rfl
  have hidle : Reach (ServiceConf.next 1) always (.started true) _ :=
    .of_exec [.closeService 2, .run 2] rfl
  refine ⟨⟨_, hbusy, rfl, fun hwell => ?_⟩, ⟨_, hidle, ?_⟩⟩
  · exact absurd (((closeService_law 1 true 2 _ hbusy rfl).1.mp hwell).2) (by decide)
  · exact (closeService_law 1 true 2 _ hidle rfl).1.mpr ⟨by decide, rfl⟩

/-- One client is connected: `CloseService` disconnects its session, which takes it out of the set,
    and goes on from there. -/
theorem closeService_invalid_iterator :
    ∃ c c', Reach (ServiceConf.next 1) always (.started true) c ∧ c.pc 1 = .closing [] .next ∧
      c.sh.sessions = {0} ∧ c.sh.connected 0 = true ∧ c.sh.sessionCount = 1 ∧
      Reach (ServiceConf.next 1) (Inside 1) c c' ∧ c'.pc 1 = .closing [0] .next ∧
      validIterator c'.sh [0] = false ∧ ¬ ClosesWell 1 1 c := by
  refine ⟨_, _, .of_exec (clientRun ++ [.closeService 1, .run 1]) rfl, rfl, by decide, rfl, rfl,
    .of_exec (.visit 1 0 :: List.replicate 7 (.run 1)) rfl, rfl, by decide, fun hwell => ?_⟩
  have hvalid := hwell.valid _ (.of_exec (.visit 1 0 :: List.replicate 7 (.run 1)) rfl) [0] rfl
  exact absurd hvalid (by decide)

end ServerCore
