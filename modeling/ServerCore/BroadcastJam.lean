/-
  File:      ServerCore/BroadcastJam.lean
  Subject:   A session whose send lock is never released stops the service.

  `_sendLock` is a plain mutex, and a write handler that finds `_sendQueue` not empty acquires it
  again (`SelfLock`). Broadcast waits for it with `_lock` in hand, so nobody gets `_lock` again.
-/
import ServerCore.BroadcastOrder

namespace ServerCore

open Trans

/-! ## 1. A jammed session -/

/-- A plain mutex lets nobody in while it is held. -/
theorem acquire_plain_of_depth {m : Mutex.State Tid} {u : Tid} (h : 0 < Mutex.depth m u)
    (t : Tid) : Mutex.acquire .plain m t = none := by
  cases m with
  | none => exact absurd h (Nat.lt_irrefl 0)
  | some hd => simp [Mutex.acquire]

/-- **Who waits for the lock of a jammed session waits for ever**, as does the thread that jams
    it. -/
theorem SelfLock.blocks {c c' : SendConf} {u t : Tid} (hs : SelfLock c u) {l : Label}
    (ht : (c.pc t).acquires = true) (h : c.next .plain l = some c') : c'.pc t = c.pc t := by
  have hidle : ∀ v, c.pc v = .idle → t ≠ v := by
    rintro v hv rfl
    rw [hv] at ht
    cases ht
  cases stepped_of_next h with
  | call v b hv => exact SendConf.set_pc_of_ne _ _ _ (hidle v hv)
  | run v sh p hstep =>
      have hne : t ≠ v := by
        rintro rfl
        have hnone := acquire_plain_of_depth hs.2 t
        generalize c.pc t = q at ht hstep
        cases q with
        | sendAcquire b | regAcquire r | procAcquire => simp [localStep, hnone] at hstep
        | _ => cases ht
      exact SendConf.set_pc_of_ne _ _ _ hne
  | complete v i n buffers hw hv => exact SendConf.set_pc_of_ne _ _ _ (hidle v hv)
  | _ => rfl

/-- **Nothing is pushed to it.** -/
theorem SelfLock.sent {c c' : SendConf} {u : Tid} (hI : LockInv c) (hs : SelfLock c u) {l : Label}
    (h : c.next .plain l = some c') : c'.sh.sent = c.sh.sent := by
  rcases PacketLink.sent_of_next h with hsent | ⟨t, b, hpc, -⟩
  · exact hsent
  · have htu : t = u := hI.unique (by rw [hpc]; exact Nat.one_pos) (by rw [← hI u]; exact hs.2)
    have hacquires := hs.1
    rw [← htu, hpc] at hacquires
    cases hacquires

/-- It stays jammed. -/
theorem SelfLock.next {c c' : SendConf} {u : Tid} (hI : LockInv c) (hs : SelfLock c u) {l : Label}
    (h : c.next .plain l = some c') : SelfLock c' u := by
  have hpc := hs.blocks hs.1 h
  refine ⟨hpc ▸ hs.1, ?_⟩
  rw [hI.step h u, hpc, ← hI u]
  exact hs.2

theorem PacketLink.lockInv_of_reach {k : Mutex.Kind} {ok : PacketLink → LinkLabel → Prop}
    {connected : Bool} {x : PacketLink} (hr : Reach (next k) ok (start connected) x) :
    LockInv x.sender := by
  refine hr.invariant (I := fun x => LockInv x.sender) (lockInv_fresh connected)
    fun x x' l hI _ h => ?_
  cases l with
  | send l =>
      obtain ⟨c, hc, rfl⟩ := Option.map_eq_some_iff.mp h
      exact hI.step hc
  | read n =>
      obtain ⟨r, -, rfl⟩ := Option.map_eq_some_iff.mp h
      exact hI

/-! ## 2. The service -/

/-- The thread is at `unique_lock lock(_lock);`. -/
def BroadcastPc.waits : BroadcastPc → Bool
  | .acquire _ | .edit _ _ .acquire => true
  | _ => false

namespace BroadcastConf

/-- **Since `s` nobody has got `_lock`**, and the broadcast `n` is not over. -/
structure Halted (s s' : BroadcastConf) (n : Nat) : Prop where
  inside : ∃ t, (s'.pc t).number = some n
  sessions : s'.sessions = s.sessions
  sessionCount : s'.sessionCount = s.sessionCount
  casts : s'.casts = s.casts
  waiting : ∀ t, (s.pc t).waits = true → s'.pc t = s.pc t

section Step

variable {Q : SendBytes → Prop} {k : Mutex.Kind} {P : PacketLink → LinkLabel → Prop}
  {connected : Bool} {s s₁ s₂ : BroadcastConf}

/-- **While a broadcast is not over, nobody gets `_lock`.** -/
theorem Halted.step {n : Nat} (h : Halted s s₁ n) (hI : BroadcastInv Q k P connected s₁)
    {l : BroadcastLabel} (hs : Acted k s₁ l s₂) (hinside : ∃ t, (s₂.pc t).number = some n) :
    Halted s s₂ n := by
  obtain ⟨⟨t, ht⟩, hsessions, hcount, hcasts, hwaiting⟩ := h
  have hheld : (s₁.pc t).held = 1 :=
    BroadcastPc.held_of_number (by rw [ht]; exact Option.some_ne_none n)
  have hI₂ := held_step hI hs
  have hne : ∀ v p, s₁.pc v = p → p.number = none → v ≠ t := by
    rintro v p hp hnone rfl
    rw [hp, hnone] at ht
    cases ht
  -- a thread that would get the lock does not, since the other one has it
  have hacquire : ∀ {v : Tid} {p q : BroadcastPc}, s₁.pc v = p → p.number = none → q.held = 1 →
      s₂.pc = Function.update s₁.pc v q → False := by
    intro v p q hp hnone hq hpc
    have hv := hne v p hp hnone
    refine hv (Mutex.HeldBy.unique hI₂ ?_ ?_)
    · rw [hpc, Function.update_self, hq]
      exact Nat.one_pos
    · rw [hpc, Function.update_of_ne hv.symm, hheld]
      exact Nat.one_pos
  have halone : ∀ {v : Tid} {p : BroadcastPc}, s₁.pc v = p → p.number = none → p.held = 1 →
      False := by
    intro v p hp hnone hp1
    exact hne v p hp hnone (hI.held.unique (by rw [hp, hp1]; exact Nat.one_pos)
      (by rw [hheld]; exact Nat.one_pos))
  have hmove : ∀ {v : Tid} {p q : BroadcastPc}, s₁.pc v = p → p.waits = false →
      s₂.pc = Function.update s₁.pc v q → s₂.sessions = s₁.sessions →
      s₂.sessionCount = s₁.sessionCount → s₂.casts = s₁.casts → Halted s s₂ n := by
    intro v p q hp hwaits hpc hsessions' hcount' hcasts'
    refine ⟨hinside, hsessions'.trans hsessions, hcount'.trans hcount, hcasts'.trans hcasts,
      fun w hw => ?_⟩
    have hpw := hwaiting w hw
    have hwv : w ≠ v := by
      rintro rfl
      rw [← hpw, hp, hwaits] at hw
      cases hw
    rw [hpc, Function.update_of_ne hwv, hpw]
  cases hs with
  | broadcast v b hpc | edit v add i hpc => exact hmove hpc rfl rfl rfl rfl rfl
  | acquire v b lock hpc hlock => exact (hacquire hpc rfl rfl rfl).elim
  | call v m b last i x hpc hi hx => exact hmove hpc rfl rfl rfl rfl rfl
  | finish v m b last hpc hi => exact hmove hpc rfl rfl rfl rfl rfl
  | returned v m b i hpc hidle => exact hmove hpc rfl rfl rfl rfl rfl
  | send v m b i x hpc hx => exact ⟨hinside, hsessions, hcount, hcasts, hwaiting⟩
  | release v hpc => exact (halone hpc rfl rfl).elim
  | editAcquire v add i lock hpc hlock => exact (hacquire hpc rfl rfl rfl).elim
  | editChange v add i hpc => exact (halone hpc rfl rfl).elim
  | editCount v add i hpc => exact (halone hpc rfl rfl).elim
  | editRelease v add i hpc => exact (halone hpc rfl rfl).elim
  | link i l x hactor hx => exact ⟨hinside, hsessions, hcount, hcasts, hwaiting⟩
  | session i l v x hactor hpc hx =>
      have hwaits : (l.from i).waits = false := by
        rcases l.from_eq i with h | h <;> rw [h] <;> rfl
      exact hmove hpc hwaits rfl rfl rfl rfl

/-- What a step does at one link. -/
theorem link_of_acted {l : BroadcastLabel} (h : Acted k s₁ l s₂) (i : Sid) :
    (s₂.link i = s₁.link i ∧ s₂.origins i = s₁.origins i) ∨
      ∃ l' o, (s₁.link i).next k l' = some (s₂.link i) ∧
        s₂.origins i = s₁.origins i ++ (s₁.link i).pushes o l' := by
  have hupdate : ∀ {j l' x} (o : Option Nat), (s₁.link j).next k l' = some x →
      s₂.link = Function.update s₁.link j x →
      s₂.origins = Function.update s₁.origins j (s₁.origins j ++ (s₁.link j).pushes o l') →
      (s₂.link i = s₁.link i ∧ s₂.origins i = s₁.origins i) ∨
        ∃ l' o, (s₁.link i).next k l' = some (s₂.link i) ∧
          s₂.origins i = s₁.origins i ++ (s₁.link i).pushes o l' := by
    intro j l' x o hx hlink horigins
    rw [hlink, horigins]
    by_cases hij : i = j
    · subst hij
      rw [Function.update_self, Function.update_self]
      exact .inr ⟨l', o, hx, rfl⟩
    · rw [Function.update_of_ne hij, Function.update_of_ne hij]
      exact .inl ⟨rfl, rfl⟩
  cases h with
  | call t n b last j x hpc hi hx => exact hupdate none hx rfl rfl
  | send t n b j x hpc hx => exact hupdate (some n) hx rfl rfl
  | link j l x hactor hx =>
      have hnil := PacketLink.pushes_of_actor (x := s₁.link j) hactor none
      exact hupdate none hx rfl (by rw [hnil]; rfl)
  | session j l t x hactor hpc hx => exact hupdate none hx rfl rfl
  | _ => exact .inl ⟨rfl, rfl⟩

/-- What was skipped stays so. -/
theorem skipped_of_acted {l : BroadcastLabel} (h : Acted k s₁ l s₂) {i : Sid} {n : Nat}
    (hn : n ∈ s₁.skipped i) : n ∈ s₂.skipped i := by
  cases h with
  | send t m b j x hpc hx =>
      show n ∈ Function.update s₁.skipped j (s₁.skipped j ++ _) i
      by_cases hij : i = j
      · subst hij
        rw [Function.update_self]
        exact List.mem_append_left _ hn
      · rw [Function.update_of_ne hij]
        exact hn
  | _ => exact hn

/-- Broadcasts stay known. -/
theorem casts_of_acted {l : BroadcastLabel} (h : Acted k s₁ l s₂) : s₁.casts <+: s₂.casts := by
  cases h with
  | acquire => exact List.prefix_append _ _
  | _ => exact List.prefix_rfl

/-- **A jammed session stays jammed, and gets nothing.** -/
theorem jammed_step {l : BroadcastLabel} (hlock : ∀ i, LockInv (s₁.link i).sender)
    (h : Acted .plain s₁ l s₂) {i : Sid} {u : Tid} (hjam : SelfLock (s₁.link i).sender u) :
    SelfLock (s₂.link i).sender u ∧ s₂.origins i = s₁.origins i ∧
      ∀ t, ((s₁.link i).sender.pc t).acquires = true →
        (s₂.link i).sender.pc t = (s₁.link i).sender.pc t := by
  rcases link_of_acted h i with ⟨hlink, horigins⟩ | ⟨l', o, hx, horigins⟩
  · rw [hlink]
    exact ⟨hjam, horigins, fun _ _ => rfl⟩
  · cases l' with
    | read n =>
        obtain ⟨r, -, hr⟩ := Option.map_eq_some_iff.mp hx
        rw [← hr]
        exact ⟨hjam, horigins.trans (List.append_nil _), fun _ _ => rfl⟩
    | send l' =>
        obtain ⟨c, hc, hr⟩ := Option.map_eq_some_iff.mp hx
        have hsent := hjam.sent (hlock i) hc
        have hnil : (s₁.link i).pushes o (.send l') = [] := by
          rcases PacketLink.pushes_of_next o hx with ⟨hnil, -⟩ | ⟨t, b, -, -, -, hpush⟩
          · exact hnil
          · rw [← hr, hsent] at hpush
            exact absurd (congrArg List.length hpush) (by simp)
        rw [← hr]
        exact ⟨hjam.next (hlock i) hc, by rw [horigins, hnil, List.append_nil],
          fun t ht => hjam.blocks ht hc⟩

/-- A thread stays inside `Send` as long as it is not idle there. -/
theorem pc_of_acted {l : BroadcastLabel} (h : Acted k s₁ l s₂) {t : Tid} {n : Nat} {b : SendBytes}
    {i : Sid} (hpc : s₁.pc t = .send n b i) (hbusy : (s₁.link i).sender.pc t ≠ .idle) :
    s₂.pc t = .send n b i := by
  have hother : ∀ {v q}, t ≠ v → s₂.pc = Function.update s₁.pc v q → s₂.pc t = .send n b i := by
    intro v q hv hupdate
    rw [hupdate, Function.update_of_ne hv, hpc]
  have hmove : ∀ {v p q}, s₁.pc v = p → p ≠ .send n b i → s₂.pc = Function.update s₁.pc v q →
      s₂.pc t = .send n b i := by
    intro v p q hp hne
    refine hother ?_
    rintro rfl
    exact hne (hp.symm.trans hpc)
  cases h with
  | broadcast v b' hv | edit v add j hv => exact hmove hv BroadcastPc.noConfusion rfl
  | acquire v b' lock hv hlock => exact hmove hv BroadcastPc.noConfusion rfl
  | call v m b' last j x hv hj hx => exact hmove hv BroadcastPc.noConfusion rfl
  | finish v m b' last hv hj => exact hmove hv BroadcastPc.noConfusion rfl
  | returned v m b' j hv hidle =>
      refine hother ?_ rfl
      rintro rfl
      cases hv.symm.trans hpc
      exact hbusy hidle
  | send v m b' j x hv hx => exact hpc
  | release v hv => exact hmove hv BroadcastPc.noConfusion rfl
  | editAcquire v add j lock hv hlock => exact hmove hv BroadcastPc.noConfusion rfl
  | editChange v add j hv | editCount v add j hv | editRelease v add j hv =>
      exact hmove hv BroadcastPc.noConfusion rfl
  | link j l x hactor hx => exact hpc
  | session j l v x hactor hv hx =>
      refine hmove hv (fun e => ?_) rfl
      rcases l.from_eq j with h | h <;> rw [h] at e <;> cases e

/-- In a run without conditions: the invariant, and what became of a broadcast. -/
theorem handled_of_reach (hr : Reach (next k) always (start connected) s) :
    BroadcastInv (fun _ => True) k (fun _ _ => True) connected s ∧
      ∀ n c i, (∀ t, (s.pc t).number ≠ some n) → s.casts[n]? = some c → i ∈ c.audience →
        some n ∈ s.origins i ∨ n ∈ s.skipped i := by
  obtain ⟨hI, a, ha, hA⟩ := exists_multicast (Q := fun _ => True) (P := fun _ _ => True)
    (fun _ _ => trivial) (fun _ _ _ _ => trivial)
    (hr.mono (fun _ l _ => by cases l <;> trivial) fun _ _ _ h => h)
  refine ⟨hI, fun n c i hover hc hi => ?_⟩
  rcases hA.handled ha hover hc hi with ⟨h, -⟩ | ⟨-, h⟩
  · exact .inl h
  · exact .inr h

end Step

/-- **A jammed session stops the service.** While a broadcast has to send to a session whose lock
    is never released, nobody gets `_lock`: no session is added or released, and no broadcast
    begins. That ends only if `Send` finds the session disconnected; if it is past that test, it
    never ends. -/
theorem broadcast_jammed (connected : Bool) (s : BroadcastConf)
    (hr : Reach (next .plain) always (start connected) s) (n : Nat)
    (c : Multicast.Cast Sid SendBytes) (i : Sid) (u : Tid) (hc : s.casts[n]? = some c)
    (hi : i ∈ c.audience) (hjam : SelfLock (s.link i).sender u) (hn : some n ∉ s.origins i) :
    (∀ s', Reach (next .plain) always s s' → n ∈ s'.skipped i ∨ Halted s s' n) ∧
    (∀ t b b', s.pc t = .send n b i → (s.link i).sender.pc t = .sendAcquire b' →
      ∀ s', Reach (next .plain) always s s' → s'.pc t = .send n b i ∧ Halted s s' n) := by
  have hstart : ∀ t, (s.pc t).number = some n → Halted s s n := fun t ht =>
    ⟨⟨t, ht⟩, rfl, rfl, rfl, fun _ _ => rfl⟩
  have hlock : ∀ {s'}, Reach (next .plain) always s s' →
      BroadcastInv (fun _ => True) .plain (fun _ _ => True) connected s' ∧
        ∀ i, LockInv (s'.link i).sender := fun hr' =>
    have hI := (handled_of_reach (hr.trans hr')).1
    ⟨hI, fun i => PacketLink.lockInv_of_reach (hI.links i)⟩
  constructor
  · intro s' hr'
    suffices h : SelfLock (s'.link i).sender u ∧ s'.origins i = s.origins i ∧
        s'.casts[n]? = some c ∧ (n ∈ s'.skipped i ∨ Halted s s' n) from h.2.2.2
    induction hr' with
    | start =>
        refine ⟨hjam, rfl, hc, ?_⟩
        by_cases hinside : ∃ t, (s.pc t).number = some n
        · exact .inr (hstart _ hinside.choose_spec)
        · exact .inl (((handled_of_reach hr).2 n c i (not_exists.mp hinside) hc hi).resolve_left hn)
    | step s₁ s₂ l hr₁ _ h ih =>
        have hs := acted_of_next h
        obtain ⟨hjam₁, horigins₁, hc₁, ih⟩ := ih
        obtain ⟨hjam₂, horigins₂, -⟩ := jammed_step (hlock hr₁).2 hs hjam₁
        have hc₂ : s₂.casts[n]? = some c := by
          obtain ⟨later, hlater⟩ := casts_of_acted hs
          rw [← hlater, List.getElem?_append_left (List.getElem?_eq_some_iff.mp hc₁).1, hc₁]
        refine ⟨hjam₂, horigins₂.trans horigins₁, hc₂, ?_⟩
        rcases ih with hskipped | hhalted
        · exact .inl (skipped_of_acted hs hskipped)
        · -- the broadcast is still not over, or it has just skipped the session
          by_cases hinside : ∃ t, (s₂.pc t).number = some n
          · exact .inr (hhalted.step (hlock hr₁).1 hs hinside)
          · refine .inl (((handled_of_reach (hr.trans (.step _ _ l hr₁ trivial h))).2 n c i
              (not_exists.mp hinside) hc₂ hi).resolve_left ?_)
            rwa [horigins₂, horigins₁]
  · intro t b b' hpc hwait s' hr'
    suffices h : SelfLock (s'.link i).sender u ∧ (s'.link i).sender.pc t = .sendAcquire b' ∧
        s'.pc t = .send n b i ∧ Halted s s' n from h.2.2
    induction hr' with
    | start => exact ⟨hjam, hwait, hpc, hstart t (by rw [hpc]; rfl)⟩
    | step s₁ s₂ l hr₁ _ h ih =>
        have hs := acted_of_next h
        obtain ⟨hjam₁, hwait₁, hpc₁, hhalted₁⟩ := ih
        obtain ⟨hjam₂, -, hsame⟩ := jammed_step (hlock hr₁).2 hs hjam₁
        have hwait₂ := (hsame t (by rw [hwait₁]; rfl)).trans hwait₁
        have hpc₂ := pc_of_acted hs hpc₁ (by rw [hwait₁]; exact Pc.noConfusion)
        exact ⟨hjam₂, hwait₂, hpc₂, hhalted₁.step (hlock hr₁).1 hs ⟨t, by rw [hpc₂]; rfl⟩⟩

/-- A second `Send` overlaps the first write of session 0, whose handler then waits for the lock it
    holds; thread 4 broadcasts, and thread 5 would add a session. -/
def jammedRun : List BroadcastLabel :=
  addRun 0 0 ++ (sendRun 1 [1] 10 ++ sendRun 2 [2] 5 ++ completionRun 3 1 4).map
    (fun l => .link 0 (.send l)) ++ broadcastRun 4 [3] 3 ++ [.edit 5 true 7]

theorem jammedRun_run : ∃ s, exec (next .plain) always (start true) jammedRun = some s ∧
    s.casts = [⟨[3], {0}⟩] ∧ SelfLock (s.link 0).sender 3 ∧ s.origins 0 = [none, none] ∧
      s.pc 4 = .send 0 [3] 0 ∧ (s.link 0).sender.pc 4 = .sendAcquire [3] ∧
      s.pc 5 = .edit true 7 .acquire ∧ s.sessionCount = 1 :=
  ⟨_, rfl, rfl, ⟨rfl, by decide⟩, rfl, rfl, rfl, rfl, rfl⟩

/-- Thread 5 never gets to add its session. -/
theorem broadcast_jammed_adds_nothing :
    ∃ s, Reach (next .plain) always (start true) s ∧
      ∀ s', Reach (next .plain) always s s' → s'.pc 4 = .send 0 [3] 0 ∧
        s'.pc 5 = .edit true 7 .acquire ∧ s'.sessionCount = 1 := by
  obtain ⟨s, hs, hcasts, hjam, horigins, hpc, hwait, hedit, hcount⟩ := jammedRun_run
  have hr := Reach.of_exec _ hs
  refine ⟨s, hr, fun s' hr' => ?_⟩
  obtain ⟨hpc', hhalted⟩ := (broadcast_jammed true s hr 0 ⟨[3], {0}⟩ 0 3 (by rw [hcasts]; rfl)
    (Finset.mem_singleton_self 0) hjam (by rw [horigins]; decide)).2 4 [3] [3] hpc hwait s' hr'
  exact ⟨hpc', (hhalted.waiting 5 (by rw [hedit]; rfl)).trans hedit,
    hhalted.sessionCount.trans hcount⟩

end BroadcastConf

end ServerCore
