/-
  File:      ServerCore/ServiceLock.lean
  Subject:   Who holds `_lock` of a Service.

  Every thread holds the lock exactly as often as its counter says (`ServicePc.held`), on every
  run of the machine (`ServiceLock.of_reach`); `CloseService` holds it through the `Disconnect`s
  it calls. So between an insertion and its `_sessionCount++`, or an erasure and its
  `_sessionCount--`, no other thread is inside the lock.
-/
import ServerCore.ServiceMachine

namespace ServerCore

open Trans

/-- How often the caller of `Disconnect` holds `_lock`. -/
def DisconnectCaller.held : DisconnectCaller → Nat
  | .close _ => 1
  | .accept | .receive | .write | .other => 0

/-- How often a thread inside `ProcessConnect` holds `_lock`. -/
def ConnectPc.held : ConnectPc → Nat
  | .insert | .count | .release => 1
  | .store | .acquire | .callback => 0

/-- How often a thread inside `Disconnect` holds `_lock`, besides its caller. -/
def DisconnectPc.held : DisconnectPc → Nat
  | .erase | .count | .release => 1
  | .exchange | .close | .callback | .acquire => 0

/-- How often a thread inside `CloseService` holds `_lock`. -/
def ClosePc.held : ClosePc → Nat
  | .next | .clear | .release => 1
  | .acquire => 0

/-- How often a thread at this counter holds `_lock`. -/
def ServicePc.held : ServicePc → Nat
  | .connecting _ _ p => p.held
  | .disconnecting d _ p => d.held + p.held
  | .closing _ p => p.held
  | .idle | .acceptLimit | .acceptIssue | .acceptTest _ | .registering _ _ _ | .received _ _
  | .sending _ _ | .written _ _ => 0

@[simp] theorem ConnectCaller.held_return (c : ConnectCaller) : c.return.held = 0 := by
  cases c <;> rfl

@[simp] theorem RecvCaller.held_return (r : RecvCaller) : r.return.held = 0 := by
  cases r with
  | processConnect c => exact c.held_return
  | handler => rfl

theorem DisconnectCaller.held_return (d : DisconnectCaller) : d.return.held = d.held := by
  cases d <;> rfl

/-- **What a step does to the lock**: it leaves it alone, or the thread acquires it, or it
    releases a lock it holds. -/
inductive LockMove (t : Tid) (s s' : ServiceState) (p p' : ServicePc) : Prop where
  | keep (hl : s'.lock = s.lock) (hh : p'.held = p.held)
  | acquire (hl : Mutex.acquire .reentrant s.lock t = some s'.lock) (hh : p'.held = p.held + 1)
  | release (hl : s'.lock = Mutex.release s.lock) (hh : p.held = p'.held + 1)

theorem serviceStep_lock {limit : Int} {t : Tid} {s s' : ServiceState} {p p' : ServicePc}
    (h : serviceStep limit t s p = some (s', p')) : LockMove t s s' p p' := by
  cases serviceAction_of_step h with
  | connectAcquire k i m hm | disconnectAcquire d i m hm | closeAcquire visited m hm =>
      exact .acquire hm rfl
  | connectRelease k i => exact .release rfl rfl
  | disconnectRelease d i => exact .release rfl (congrArg (· + 1) d.held_return.symm)
  | closeRelease visited => exact .release rfl rfl
  | registerDead r i hdead => exact .keep rfl r.held_return
  | issueReceive r i => exact .keep rfl r.held_return
  | exchangeIgnored d i hdead => exact .keep rfl d.held_return
  | _ => exact .keep rfl rfl

/-- **The lock invariant**: every thread holds the lock as often as its counter says. -/
def ServiceLock (c : ServiceConf) : Prop := Mutex.HeldBy c.sh.lock fun t => (c.pc t).held

theorem serviceLock_started (server : Bool) : ServiceLock (.started server) := by
  refine Mutex.HeldBy.free fun t => ?_
  unfold ServiceConf.started
  dsimp only
  split <;> rfl

/-- What the threads hold after one of them moved. -/
theorem ServiceConf.held_set (c : ServiceConf) (t : Tid) (sh : ServiceState) (p : ServicePc) :
    (fun u => ((c.set t sh p).pc u).held) =
      Function.update (fun u => (c.pc u).held) t p.held :=
  Function.comp_update ServicePc.held c.pc t p

/-- A thread moved without the lock. -/
theorem ServiceLock.keep {c : ServiceConf} (hI : ServiceLock c) {t : Tid} {sh : ServiceState}
    {p : ServicePc} (hl : sh.lock = c.sh.lock) (hh : p.held = (c.pc t).held) :
    ServiceLock (c.set t sh p) := by
  unfold ServiceLock
  rw [c.held_set, ServiceConf.set_sh, hl]
  exact Mutex.HeldBy.keep hI hh

/-- A thread that was idle starts where it holds nothing. -/
theorem ServiceLock.start {c : ServiceConf} (hI : ServiceLock c) {t : Tid} {sh : ServiceState}
    {p : ServicePc} (hidle : c.pc t = .idle) (hl : sh.lock = c.sh.lock) (hh : p.held = 0) :
    ServiceLock (c.set t sh p) :=
  hI.keep hl (by rw [hidle]; exact hh)

theorem ServiceLock.step {limit : Int} {c c' : ServiceConf} {l : ServiceLabel}
    (hI : ServiceLock c) (h : c.next limit l = some c') : ServiceLock c' := by
  cases serviceStepped_of_next h with
  | acceptError t ha hidle | accept t ha hidle | connect t hidle | receive t i o hr hidle
  | write t i o hw hidle => exact hI.start hidle rfl rfl
  | hold i source hs => exact hI
  | drop i hh => exact hI
  | send t i hh hidle | disconnect t i hh hidle | closeService t hidle =>
      exact hI.start hidle rfl rfl
  | visit t i visited hp hv hi hnew => exact hI.keep rfl (by rw [hp]; rfl)
  | run t sh p hs =>
      rcases serviceStep_lock hs with ⟨hl, hh⟩ | ⟨hl, hh⟩ | ⟨hl, hh⟩
      · exact hI.keep hl hh
      · unfold ServiceLock
        rw [c.held_set]
        exact Mutex.HeldBy.acquire hI hl hh
      · unfold ServiceLock
        rw [c.held_set, ServiceConf.set_sh, hl]
        exact Mutex.HeldBy.release hI hh

/-- **The lock invariant holds on every run.** -/
theorem ServiceLock.of_reach {limit : Int} {ok : ServiceConf → ServiceLabel → Prop}
    {server : Bool} {c : ServiceConf}
    (hr : Reach (ServiceConf.next limit) ok (.started server) c) : ServiceLock c :=
  hr.invariant (serviceLock_started server) fun _ _ _ hI _ h => hI.step h

/-- Two threads inside the lock are one thread. -/
theorem ServiceLock.unique {c : ServiceConf} (hI : ServiceLock c) {t u : Tid}
    (ht : 0 < (c.pc t).held) (hu : 0 < (c.pc u).held) : t = u :=
  Mutex.HeldBy.unique hI ht hu

end ServerCore
