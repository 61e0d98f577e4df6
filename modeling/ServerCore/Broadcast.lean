/-
  File:      ServerCore/Broadcast.lean
  Subject:   Service::Broadcast (Service.cpp) over all sessions of a service, as a machine of
             threads: Broadcast calls Session::Send on every session of `_sessions` under `_lock`,
             while other threads send, complete writes, disconnect, add and release sessions.

  `_sessions` is a `std::set` of pointers, so its order is that of the addresses, and a session is
  its address. The iterator of the loop is at the session it called last; the next one is the first
  behind it in the set as it is then. Every session has its link (`PacketLink`): its threads and its
  client at the other end. A thread inside Broadcast runs the code of `Send` on the link of its
  session.

  `casts` are the broadcasts in the order in which they got the lock, with the set they found. For
  every session `origins` says of each buffer in `sent` which broadcast pushed it, and `skipped`
  are the broadcasts whose `Send` found it not connected. `_lock` is a `std::recursive_mutex`, and
  `k` is the kind of the sessions' `_sendLock`.
-/
import Mathlib.Data.Finset.Max
import ServerCore.Lib.Multicast
import ServerCore.PacketLink
import ServerCore.ServiceMachine

namespace ServerCore

/-! ## 1. States -/

/-- The next action inside `AddSession` or `ReleaseSession`. -/
inductive EditPc where
  /-- `unique_lock lock(_lock);` -/
  | acquire
  /-- `_sessions.insert(session);` or `_sessions.erase(session);` -/
  | change
  /-- `_sessionCount++;` or `_sessionCount--;` -/
  | count
  /-- end of the lock's scope -/
  | release
  deriving DecidableEq, Repr

/-- The next action of a thread; `n` is the number of its broadcast. -/
inductive BroadcastPc where
  /-- in none of these functions -/
  | out
  /-- inside `Send` or a write handler of the session, not from `Broadcast` -/
  | session (i : Sid)
  /-- `Broadcast`: `unique_lock lock(_lock);` -/
  | acquire (b : SendBytes)
  /-- `Broadcast`: the loop, with the iterator at the session `last` -/
  | loop (n : Nat) (b : SendBytes) (last : Option Sid)
  /-- `Broadcast`: inside `session->Send(sendBuffer)` -/
  | send (n : Nat) (b : SendBytes) (i : Sid)
  /-- `Broadcast`: end of the lock's scope -/
  | release
  /-- `AddSession(session)` or `ReleaseSession(session)` -/
  | edit (add : Bool) (i : Sid) (p : EditPc)
  deriving DecidableEq, Repr

/-- A service with its sessions, and the thread counters. -/
structure BroadcastConf where
  lock : Mutex.State Tid
  sessions : Finset Sid
  sessionCount : Int
  link : Sid → PacketLink
  pc : Tid → BroadcastPc
  casts : List (Multicast.Cast Sid SendBytes)
  origins : Sid → List (Option Nat)
  skipped : Sid → List Nat

/-- What happens next. -/
inductive BroadcastLabel where
  /-- thread `t` calls `Broadcast(b)` -/
  | broadcast (t : Tid) (b : SendBytes)
  /-- thread `t` calls `AddSession(i)` or `ReleaseSession(i)` -/
  | edit (t : Tid) (add : Bool) (i : Sid)
  /-- thread `t` takes its next action in one of these functions -/
  | run (t : Tid)
  /-- anything else at the link of session `i` -/
  | link (i : Sid) (l : LinkLabel)
  deriving DecidableEq, Repr

/-! ## 2. Steps -/

/-- The thread that acts at a link. -/
def LinkLabel.actor : LinkLabel → Option Tid
  | .send (.call t _) | .send (.run t) | .send (.complete t _) => some t
  | _ => none

/-- Where it comes from. -/
def LinkLabel.from (i : Sid) : LinkLabel → BroadcastPc
  | .send (.run _) => .session i
  | _ => .out

/-- The origins of what a step at a link pushes. -/
def PacketLink.pushes (x : PacketLink) (origin : Option Nat) : LinkLabel → List (Option Nat)
  | .send (.run t) =>
      match x.sender.pc t with
      | .sendPush _ => [origin]
      | _ => []
  | _ => []

/-- Thread `t` is at the test of `IsConnected()` in `Send`, and it fails. -/
def SendConf.skips (c : SendConf) (t : Tid) : Bool :=
  match c.pc t with
  | .sendCheck _ => !c.sh.connected
  | _ => false

namespace BroadcastConf

/-- Thread `t` moves to `p`. -/
def goto (s : BroadcastConf) (t : Tid) (p : BroadcastPc) : BroadcastConf :=
  { s with pc := Function.update s.pc t p }

/-- The link of session `i` moves to `x`; the step pushed the buffers of `pushed`. -/
def setLink (s : BroadcastConf) (i : Sid) (x : PacketLink) (pushed : List (Option Nat)) :
    BroadcastConf :=
  { s with
    link := Function.update s.link i x
    origins := Function.update s.origins i (s.origins i ++ pushed) }

/-- The broadcast `n` skipped session `i`, if `skip` is true. -/
def skip (s : BroadcastConf) (i : Sid) (n : Nat) (skip : Bool) : BroadcastConf :=
  { s with skipped := Function.update s.skipped i (s.skipped i ++ if skip then [n] else []) }

/-- The sessions behind the iterator. -/
def behind (s : BroadcastConf) (last : Option Sid) : Finset Sid :=
  s.sessions.filter fun i => last.all (· < i)

/-- The session the iterator comes to next. -/
def following (s : BroadcastConf) (last : Option Sid) : Option Sid :=
  if h : (s.behind last).Nonempty then some ((s.behind last).min' h) else none

/-- **The next action of a thread** inside one of these functions; `none`: nothing to do, or
    blocked. -/
def act (k : Mutex.Kind) (s : BroadcastConf) (t : Tid) : Option BroadcastConf :=
  match s.pc t with
  | .out | .session _ => none
  | .acquire b => (Mutex.acquire .reentrant s.lock t).map fun lock =>
      { s with lock, casts := s.casts ++ [Multicast.Cast.mk b s.sessions] }.goto t
        (.loop s.casts.length b none)
  | .loop n b last =>
      match s.following last with
      | some i => ((s.link i).next k (.send (.call t b))).map fun x =>
          (s.setLink i x []).goto t (.send n b i)
      | none => some (s.goto t .release)
  | .send n b i =>
      if (s.link i).sender.pc t = .idle then some (s.goto t (.loop n b (some i)))
      else ((s.link i).next k (.send (.run t))).map fun x =>
        (s.setLink i x ((s.link i).pushes (some n) (.send (.run t)))).skip i n
          ((s.link i).sender.skips t)
  | .release => some ({ s with lock := Mutex.release s.lock }.goto t .out)
  | .edit add i .acquire => (Mutex.acquire .reentrant s.lock t).map fun lock =>
      { s with lock }.goto t (.edit add i .change)
  | .edit add i .change => some
      ({ s with sessions := if add then insert i s.sessions else s.sessions.erase i }.goto t
        (.edit add i .count))
  | .edit add i .count => some
      ({ s with sessionCount := if add then s.sessionCount + 1 else s.sessionCount - 1 }.goto t
        (.edit add i .release))
  | .edit _ _ .release => some ({ s with lock := Mutex.release s.lock }.goto t .out)

/-- A step at the link of session `i`, and its thread: inside the session's code as long as it is
    not idle there. -/
def linkStep (k : Mutex.Kind) (s : BroadcastConf) (i : Sid) (l : LinkLabel) :
    Option BroadcastConf :=
  match l.actor with
  | none => ((s.link i).next k l).map fun x => s.setLink i x []
  | some t =>
      if s.pc t = l.from i then
        ((s.link i).next k l).map fun x =>
          (s.setLink i x ((s.link i).pushes none l)).goto t
            (if x.sender.pc t = .idle then .out else .session i)
      else none

/-- **The step function.** -/
def next (k : Mutex.Kind) (s : BroadcastConf) : BroadcastLabel → Option BroadcastConf
  | .broadcast t b => if s.pc t = .out then some (s.goto t (.acquire b)) else none
  | .edit t add i => if s.pc t = .out then some (s.goto t (.edit add i .acquire)) else none
  | .run t => s.act k t
  | .link i l => s.linkStep k i l

/-- A service without sessions; `connected`: the sessions are, once they are added. -/
def start (connected : Bool) : BroadcastConf :=
  ⟨none, ∅, 0, fun _ => .start connected, fun _ => .out, [], fun _ => [], fun _ => []⟩

end BroadcastConf

/-! ## 3. Steps at a link -/

namespace PacketLink

variable {k : Mutex.Kind} {x x' : PacketLink}

/-- **Only the thread that acts moves.** -/
theorem pc_of_next {l : LinkLabel} (h : x.next k l = some x') {u : Tid} (hu : l.actor ≠ some u) :
    x'.sender.pc u = x.sender.pc u := by
  cases l with
  | read n =>
      obtain ⟨r, -, rfl⟩ := Option.map_eq_some_iff.mp h
      rfl
  | send l =>
      obtain ⟨c, hc, rfl⟩ := Option.map_eq_some_iff.mp h
      cases stepped_of_next hc with
      | call t b _ => exact SendConf.set_pc_of_ne _ _ _ fun e => hu (congrArg some e.symm)
      | run t sh p _ => exact SendConf.set_pc_of_ne _ _ _ fun e => hu (congrArg some e.symm)
      | complete t i n buffers _ _ =>
          exact SendConf.set_pc_of_ne _ _ _ fun e => hu (congrArg some e.symm)
      | _ => rfl

/-- **What a step pushes**: nothing, or the buffer of the thread that acts. -/
theorem pushes_of_next {l : LinkLabel} (origin : Option Nat) (h : x.next k l = some x') :
    (x.pushes origin l = [] ∧ x'.sender.sh.sent = x.sender.sh.sent) ∨
      ∃ t b, l = .send (.run t) ∧ x.sender.pc t = .sendPush b ∧ x.pushes origin l = [origin] ∧
        x'.sender.sh.sent = x.sender.sh.sent ++ [b] := by
  cases l with
  | read n =>
      obtain ⟨r, -, rfl⟩ := Option.map_eq_some_iff.mp h
      exact .inl ⟨rfl, rfl⟩
  | send l =>
      obtain ⟨c, hc, rfl⟩ := Option.map_eq_some_iff.mp h
      cases stepped_of_next hc with
      | run t sh p hs =>
          unfold pushes
          dsimp only
          generalize hp : x.sender.pc t = q at hs ⊢
          cases sendAction_of_step hs with
          | push b => exact .inr ⟨t, b, rfl, hp, rfl, rfl⟩
          | _ => exact .inl ⟨rfl, rfl⟩
      | fail i error buffers hw =>
          rw [SendState.handleError_eq]
          exact .inl ⟨rfl, rfl⟩
      | _ => exact .inl ⟨rfl, rfl⟩

theorem pushes_of_actor {l : LinkLabel} (h : l.actor = none) (origin : Option Nat) :
    x.pushes origin l = [] := by
  unfold pushes
  split
  · cases h
  · rfl

/-- **What an action does for the buffer a thread has to push**: it leaves it so, pushes it, or
    skips it. -/
inductive SendEffect (origin : Option Nat) (t : Tid) (x x' : PacketLink) : Prop where
  | keep (htoPush : (x'.sender.pc t).toPush = (x.sender.pc t).toPush)
      (hpushes : x.pushes origin (.send (.run t)) = []) (hskips : x.sender.skips t = false)
  | push (b : SendBytes) (hb : (x.sender.pc t).toPush = some b)
      (htoPush : (x'.sender.pc t).toPush = none)
      (hpushes : x.pushes origin (.send (.run t)) = [origin])
      (hskips : x.sender.skips t = false)
  | skip (b : SendBytes) (hb : (x.sender.pc t).toPush = some b)
      (htoPush : (x'.sender.pc t).toPush = none)
      (hpushes : x.pushes origin (.send (.run t)) = []) (hskips : x.sender.skips t = true)

theorem sendEffect_of_next {t : Tid} (origin : Option Nat)
    (h : x.next k (.send (.run t)) = some x') : SendEffect origin t x x' := by
  obtain ⟨c, hnext, rfl⟩ := Option.map_eq_some_iff.mp h
  obtain ⟨⟨sh, p⟩, hs, rfl⟩ := Option.map_eq_some_iff.mp hnext
  have hset : ((x.sender.set t sh p).pc t) = p := SendConf.set_pc_self ..
  generalize hp : x.sender.pc t = q at hs
  cases sendAction_of_step hs with
  | push b =>
      refine .push b (by rw [hp]; rfl) (by rw [hset]; rfl) ?_ ?_
      · rw [pushes, hp]
      · rw [SendConf.skips, hp]
  | sendDead b hc =>
      refine .skip b (by rw [hp]; rfl) (by rw [hset]; rfl) ?_ ?_
      · rw [pushes, hp]
      · rw [SendConf.skips, hp]
        exact congrArg (!·) hc
  | send b hc =>
      refine .keep (by rw [hset, hp]; rfl) ?_ ?_
      · rw [pushes, hp]
      · rw [SendConf.skips, hp]
        exact congrArg (!·) hc
  | registerDead c _ | regClear c | issue c =>
      refine .keep (by rw [hset, hp, Caller.toPush_return]; rfl) ?_ ?_
      · rw [pushes, hp]
      · rw [SendConf.skips, hp]
  | _ =>
      refine .keep (by rw [hset, hp]; rfl) ?_ ?_
      · rw [pushes, hp]
      · rw [SendConf.skips, hp]

/-- A thread that called `Send` has the buffer to push. -/
theorem toPush_of_call {t : Tid} {b : SendBytes} (h : x.next k (.send (.call t b)) = some x') :
    (x'.sender.pc t).toPush = some b := by
  obtain ⟨c, hnext, rfl⟩ := Option.map_eq_some_iff.mp h
  cases stepped_of_next hnext with
  | call _ _ _ => exact congrArg Pc.toPush (SendConf.set_pc_self ..)

end PacketLink

theorem LinkLabel.from_eq (l : LinkLabel) (i : Sid) : l.from i = .session i ∨ l.from i = .out := by
  unfold LinkLabel.from
  split
  · exact .inl rfl
  · exact .inr rfl

/-! ## 4. Inversion -/

namespace BroadcastConf

section Goto

variable (s : BroadcastConf) (t : Tid) (p : BroadcastPc)

@[simp] theorem goto_pc_self : (s.goto t p).pc t = p := Function.update_self ..

theorem goto_pc_of_ne {u : Tid} (hu : u ≠ t) : (s.goto t p).pc u = s.pc u :=
  Function.update_of_ne hu ..

end Goto

/-- **What a step can do**, one case for each. -/
inductive Acted (k : Mutex.Kind) (s : BroadcastConf) : BroadcastLabel → BroadcastConf → Prop where
  | broadcast (t : Tid) (b : SendBytes) (hpc : s.pc t = .out) :
      Acted k s (.broadcast t b) (s.goto t (.acquire b))
  | edit (t : Tid) (add : Bool) (i : Sid) (hpc : s.pc t = .out) :
      Acted k s (.edit t add i) (s.goto t (.edit add i .acquire))
  | acquire (t : Tid) (b : SendBytes) (lock : Mutex.State Tid) (hpc : s.pc t = .acquire b)
      (hlock : Mutex.acquire .reentrant s.lock t = some lock) :
      Acted k s (.run t)
        ({ s with lock, casts := s.casts ++ [Multicast.Cast.mk b s.sessions] }.goto t
          (.loop s.casts.length b none))
  | call (t : Tid) (n : Nat) (b : SendBytes) (last : Option Sid) (i : Sid) (x : PacketLink)
      (hpc : s.pc t = .loop n b last) (hi : s.following last = some i)
      (hx : (s.link i).next k (.send (.call t b)) = some x) :
      Acted k s (.run t) ((s.setLink i x []).goto t (.send n b i))
  | finish (t : Tid) (n : Nat) (b : SendBytes) (last : Option Sid)
      (hpc : s.pc t = .loop n b last) (hi : s.following last = none) :
      Acted k s (.run t) (s.goto t .release)
  | returned (t : Tid) (n : Nat) (b : SendBytes) (i : Sid) (hpc : s.pc t = .send n b i)
      (hidle : (s.link i).sender.pc t = .idle) :
      Acted k s (.run t) (s.goto t (.loop n b (some i)))
  | send (t : Tid) (n : Nat) (b : SendBytes) (i : Sid) (x : PacketLink)
      (hpc : s.pc t = .send n b i) (hx : (s.link i).next k (.send (.run t)) = some x) :
      Acted k s (.run t)
        ((s.setLink i x ((s.link i).pushes (some n) (.send (.run t)))).skip i n
          ((s.link i).sender.skips t))
  | release (t : Tid) (hpc : s.pc t = .release) :
      Acted k s (.run t) ({ s with lock := Mutex.release s.lock }.goto t .out)
  | editAcquire (t : Tid) (add : Bool) (i : Sid) (lock : Mutex.State Tid)
      (hpc : s.pc t = .edit add i .acquire)
      (hlock : Mutex.acquire .reentrant s.lock t = some lock) :
      Acted k s (.run t) ({ s with lock }.goto t (.edit add i .change))
  | editChange (t : Tid) (add : Bool) (i : Sid) (hpc : s.pc t = .edit add i .change) :
      Acted k s (.run t)
        ({ s with sessions := if add then insert i s.sessions else s.sessions.erase i }.goto t
          (.edit add i .count))
  | editCount (t : Tid) (add : Bool) (i : Sid) (hpc : s.pc t = .edit add i .count) :
      Acted k s (.run t)
        ({ s with sessionCount := if add then s.sessionCount + 1 else s.sessionCount - 1 }.goto t
          (.edit add i .release))
  | editRelease (t : Tid) (add : Bool) (i : Sid) (hpc : s.pc t = .edit add i .release) :
      Acted k s (.run t) ({ s with lock := Mutex.release s.lock }.goto t .out)
  | link (i : Sid) (l : LinkLabel) (x : PacketLink) (hactor : l.actor = none)
      (hx : (s.link i).next k l = some x) : Acted k s (.link i l) (s.setLink i x [])
  | session (i : Sid) (l : LinkLabel) (t : Tid) (x : PacketLink) (hactor : l.actor = some t)
      (hpc : s.pc t = l.from i) (hx : (s.link i).next k l = some x) :
      Acted k s (.link i l)
        ((s.setLink i x ((s.link i).pushes none l)).goto t
          (if x.sender.pc t = .idle then .out else .session i))

theorem acted_of_act {k : Mutex.Kind} {s s' : BroadcastConf} {t : Tid}
    (h : s.act k t = some s') : Acted k s (.run t) s' := by
  unfold act at h
  split at h
  · cases h
  · cases h
  · rename_i b hpc
    obtain ⟨lock, hlock, rfl⟩ := Option.map_eq_some_iff.mp h
    exact .acquire t b lock hpc hlock
  · rename_i n b last hpc
    split at h
    · rename_i i hi
      obtain ⟨x, hx, rfl⟩ := Option.map_eq_some_iff.mp h
      exact .call t n b last i x hpc hi hx
    · rename_i hi
      cases h
      exact .finish t n b last hpc hi
  · rename_i n b i hpc
    split at h
    · rename_i hidle
      cases h
      exact .returned t n b i hpc hidle
    · obtain ⟨x, hx, rfl⟩ := Option.map_eq_some_iff.mp h
      exact .send t n b i x hpc hx
  · rename_i hpc
    cases h
    exact .release t hpc
  · rename_i add i hpc
    obtain ⟨lock, hlock, rfl⟩ := Option.map_eq_some_iff.mp h
    exact .editAcquire t add i lock hpc hlock
  · rename_i add i hpc
    cases h
    exact .editChange t add i hpc
  · rename_i add i hpc
    cases h
    exact .editCount t add i hpc
  · rename_i add i hpc
    cases h
    exact .editRelease t add i hpc

theorem acted_of_next {k : Mutex.Kind} {s s' : BroadcastConf} {l : BroadcastLabel}
    (h : s.next k l = some s') : Acted k s l s' := by
  cases l with
  | broadcast t b =>
      simp only [next] at h
      split at h
      · rename_i hpc
        cases h
        exact .broadcast t b hpc
      · cases h
  | edit t add i =>
      simp only [next] at h
      split at h
      · rename_i hpc
        cases h
        exact .edit t add i hpc
      · cases h
  | run t => exact acted_of_act h
  | link i l =>
      simp only [next, linkStep] at h
      split at h
      · rename_i hactor
        obtain ⟨x, hx, rfl⟩ := Option.map_eq_some_iff.mp h
        exact .link i l x hactor hx
      · rename_i t hactor
        split at h
        · rename_i hpc
          obtain ⟨x, hx, rfl⟩ := Option.map_eq_some_iff.mp h
          exact .session i l t x hactor hpc hx
        · cases h

end BroadcastConf

end ServerCore
