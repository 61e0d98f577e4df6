/-
  File:      ServerCore/BroadcastInv.lean
  Subject:   What holds in every run of a service whose threads broadcast.

  `BroadcastInv`: a thread is in the code of one session at most; the one inside Broadcast holds
  `_lock`, so its broadcast is for the sessions there are; every link makes a run of a link; and
  what a broadcast pushed to a session is its buffer.
-/
import Mathlib.Data.List.Forall2
import ServerCore.Broadcast

namespace ServerCore

open Trans

/-! ## 1. The invariant -/

namespace BroadcastPc

/-- How often the thread holds `_lock`. -/
def held : BroadcastPc → Nat
  | .loop _ _ _ | .send _ _ _ | .release | .edit _ _ .change | .edit _ _ .count
  | .edit _ _ .release => 1
  | _ => 0

/-- The session whose code the thread is in. -/
def place : BroadcastPc → Option Sid
  | .session i | .send _ _ i => some i
  | _ => none

/-- The broadcast whose loop the thread is in. -/
def number : BroadcastPc → Option Nat
  | .loop n _ _ | .send n _ _ => some n
  | _ => none

theorem held_of_number {p : BroadcastPc} (h : p.number ≠ none) : p.held = 1 := by
  cases p with
  | loop n b last | send n b i => rfl
  | _ => exact absurd rfl h

theorem held_update (pc : Tid → BroadcastPc) (t : Tid) (p : BroadcastPc) :
    (fun u => (Function.update pc t p u).held) = Function.update (fun u => (pc u).held) t p.held :=
  Function.comp_update held pc t p

end BroadcastPc

namespace BroadcastConf

/-- What a thread knows: the number of its broadcast stands for its buffer and the sessions there
    are; inside `Send` it is at one of them, with this buffer. -/
def Knows (Q : SendBytes → Prop) (s : BroadcastConf) (t : Tid) : BroadcastPc → Prop
  | .acquire b => Q b
  | .loop n b _ => Q b ∧ s.casts[n]? = some ⟨b, s.sessions⟩
  | .send n b i => Q b ∧ s.casts[n]? = some ⟨b, s.sessions⟩ ∧ i ∈ s.sessions ∧
      ∀ b', ((s.link i).sender.pc t).toPush = some b' → b' = b
  | _ => True

/-- What holds of a thread. -/
structure ThreadInv (Q : SendBytes → Prop) (s : BroadcastConf) (t : Tid) : Prop where
  elsewhere : ∀ i, (s.pc t).place ≠ some i → (s.link i).sender.pc t = .idle
  knows : s.Knows Q t (s.pc t)

/-- The origin that `origins` gives a buffer sent on session `i` is one. -/
def Origin (casts : List (Multicast.Cast Sid SendBytes)) (i : Sid) (origin : Option Nat)
    (b : SendBytes) : Prop :=
  ∀ n, origin = some n → ∃ c, casts[n]? = some c ∧ c.message = b ∧ i ∈ c.audience

/-- **The invariant** of a run whose broadcasts meet `Q`, and whose steps at the links meet `P`. -/
structure BroadcastInv (Q : SendBytes → Prop) (k : Mutex.Kind)
    (P : PacketLink → LinkLabel → Prop) (connected : Bool) (s : BroadcastConf) : Prop where
  held : Mutex.HeldBy s.lock fun t => (s.pc t).held
  thread : ∀ t, s.ThreadInv Q t
  links : ∀ i, Reach (PacketLink.next k) P (.start connected) (s.link i)
  origins : ∀ i, List.Forall₂ (Origin s.casts i) (s.origins i) (s.link i).sender.sh.sent

/-- What is broadcast meets `Q`, and the steps at the links meet `P`. -/
def Admits (Q : SendBytes → Prop) (P : PacketLink → LinkLabel → Prop) (s : BroadcastConf) :
    BroadcastLabel → Prop
  | .broadcast _ b => Q b
  | .link i l => P (s.link i) l
  | .edit _ _ _ | .run _ => True

/-! ## 2. Steps keep it -/

section Step

variable {Q : SendBytes → Prop} {k : Mutex.Kind} {P : PacketLink → LinkLabel → Prop}
  {connected : Bool} {s s' : BroadcastConf}

theorem broadcastInv_start (Q : SendBytes → Prop) (k : Mutex.Kind)
    (P : PacketLink → LinkLabel → Prop) (connected : Bool) :
    BroadcastInv Q k P connected (start connected) where
  held := .free fun _ => rfl
  thread _ := ⟨fun _ _ => rfl, trivial⟩
  links _ := .start
  origins _ := .nil

theorem held_step (hI : BroadcastInv Q k P connected s) {l : BroadcastLabel} (h : Acted k s l s') :
    Mutex.HeldBy s'.lock fun t => (s'.pc t).held := by
  have hkeep : ∀ {t p q}, s.pc t = p → q.held = p.held →
      Mutex.HeldBy s.lock fun u => (Function.update s.pc t q u).held := by
    intro t p q hp hq
    rw [BroadcastPc.held_update]
    exact hI.held.keep (by rw [hq, hp])
  have hacquire : ∀ {t p q lock}, s.pc t = p → q.held = p.held + 1 →
      Mutex.acquire .reentrant s.lock t = some lock →
      Mutex.HeldBy lock fun u => (Function.update s.pc t q u).held := by
    intro t p q lock hp hq hlock
    rw [BroadcastPc.held_update]
    exact hI.held.acquire hlock (by rw [hq, hp])
  have hrelease : ∀ {t p q}, s.pc t = p → p.held = q.held + 1 →
      Mutex.HeldBy (Mutex.release s.lock) fun u => (Function.update s.pc t q u).held := by
    intro t p q hp hq
    rw [BroadcastPc.held_update]
    exact hI.held.release (by rw [hp, hq])
  cases h with
  | broadcast t b hpc | edit t add i hpc | finish t n b last hpc hi => exact hkeep hpc rfl
  | acquire t b lock hpc hlock => exact hacquire hpc rfl hlock
  | call t n b last i x hpc hi hx => exact hkeep hpc rfl
  | returned t n b i hpc hidle => exact hkeep hpc rfl
  | send t n b i x hpc hx => exact hI.held
  | release t hpc => exact hrelease hpc rfl
  | editAcquire t add i lock hpc hlock => exact hacquire hpc rfl hlock
  | editChange t add i hpc | editCount t add i hpc => exact hkeep hpc rfl
  | editRelease t add i hpc => exact hrelease hpc rfl
  | link i l x hactor hx => exact hI.held
  | session i l t x hactor hpc hx =>
      have hfrom : (l.from i).held = 0 := by
        rcases l.from_eq i with h | h <;> rw [h] <;> rfl
      refine hkeep hpc ?_
      rw [hfrom]
      split <;> rfl

/-- While a thread holds the lock, no other one is inside a loop. -/
theorem number_eq_none (hheld : Mutex.HeldBy s.lock fun t => (s.pc t).held) {t u : Tid}
    (ht : 0 < (s.pc t).held) (hu : u ≠ t) : (s.pc u).number = none := by
  by_contra hn
  refine hu (hheld.unique ?_ ht)
  rw [BroadcastPc.held_of_number hn]
  exact Nat.one_pos

/-- A thread that did not move knows what it knew. -/
theorem ThreadInv.frame {t : Tid} (h : s.ThreadInv Q t) (hpc : s'.pc t = s.pc t)
    (hlink : ∀ i, (s'.link i).sender.pc t = (s.link i).sender.pc t)
    (hshared : (s.pc t).number ≠ none → s'.sessions = s.sessions ∧ s'.casts = s.casts) :
    s'.ThreadInv Q t := by
  obtain ⟨helse, hknows⟩ := h
  refine ⟨fun i hi => ?_, ?_⟩
  · rw [hlink]
    exact helse i (hpc ▸ hi)
  · rw [hpc]
    generalize s.pc t = p at hknows hshared
    cases p with
    | loop n b last =>
        obtain ⟨hsessions, hcasts⟩ := hshared (by simp [BroadcastPc.number])
        simp only [Knows, hsessions, hcasts]
        exact hknows
    | send n b i =>
        obtain ⟨hsessions, hcasts⟩ := hshared (by simp [BroadcastPc.number])
        simp only [Knows, hsessions, hcasts, hlink]
        exact hknows
    | _ => exact hknows

/-- **One thread moves**: it knows what it has to at its new counter, and the others do not see
    it; those inside a loop find the same sessions and broadcasts. -/
theorem ThreadInv.moved (h : ∀ u, s.ThreadInv Q u) {t : Tid} {p : BroadcastPc}
    (hpc : s'.pc = Function.update s.pc t p)
    (hlink : ∀ u, u ≠ t → ∀ i, (s'.link i).sender.pc u = (s.link i).sender.pc u)
    (hshared : ∀ u, u ≠ t → (s.pc u).number ≠ none →
      s'.sessions = s.sessions ∧ s'.casts = s.casts)
    (helse : ∀ i, p.place ≠ some i → (s'.link i).sender.pc t = .idle) (hknows : s'.Knows Q t p)
    (u : Tid) : s'.ThreadInv Q u := by
  by_cases hu : u = t
  · subst hu
    have hp : s'.pc u = p := hpc ▸ Function.update_self ..
    exact ⟨hp ▸ helse, hp ▸ hknows⟩
  · exact (h u).frame (hpc ▸ Function.update_of_ne hu ..) (hlink u hu) (hshared u hu)

/-- A thread is idle at the sessions it is not in. -/
theorem BroadcastInv.idle (hI : BroadcastInv Q k P connected s) {t : Tid} {p : BroadcastPc}
    (hpc : s.pc t = p) {i : Sid} (hp : p.place ≠ some i) : (s.link i).sender.pc t = .idle :=
  (hI.thread t).elsewhere i (by rw [hpc]; exact hp)

theorem BroadcastInv.knows (hI : BroadcastInv Q k P connected s) {t : Tid} {p : BroadcastPc}
    (hpc : s.pc t = p) : s.Knows Q t p := hpc ▸ (hI.thread t).knows

/-- A step at one link is not seen by the threads that do not act. -/
theorem update_link_pc {i : Sid} {x : PacketLink} {l : LinkLabel}
    (hx : (s.link i).next k l = some x) {u : Tid} (hu : l.actor ≠ some u) (j : Sid) :
    (Function.update s.link i x j).sender.pc u = (s.link j).sender.pc u := by
  by_cases hj : j = i
  · subst hj
    rw [Function.update_self]
    exact PacketLink.pc_of_next hx hu
  · rw [Function.update_of_ne hj]

/-- The thread of the step is idle where it is not. -/
theorem BroadcastInv.idle_update (hI : BroadcastInv Q k P connected s) {t : Tid} {p : BroadcastPc}
    {i : Sid} (hpc : s.pc t = p) (hp : ∀ j, j ≠ i → p.place ≠ some j) (x : PacketLink) {j : Sid}
    (hj : j ≠ i) : (Function.update s.link i x j).sender.pc t = .idle := by
  rw [Function.update_of_ne hj]
  exact hI.idle hpc (hp j hj)

theorem mem_behind_of_following {last : Option Sid} {i : Sid} (h : s.following last = some i) :
    i ∈ s.behind last := by
  unfold following at h
  split at h
  · exact Option.some.inj h ▸ Finset.min'_mem _ _
  · cases h

theorem thread_step (hI : BroadcastInv Q k P connected s) {l : BroadcastLabel}
    (hok : Admits Q P s l) (h : Acted k s l s') : ∀ u, s'.ThreadInv Q u := by
  have hheld := held_step hI h
  have hnone : ∀ {q : BroadcastPc}, q.place = none → ∀ i, q.place ≠ some i := fun hq i e =>
    absurd (hq.symm.trans e) (Option.some_ne_none i).symm
  -- a thread that works on the service alone
  have hmove : ∀ {t p q}, s.pc t = p → p.place = none → s'.pc = Function.update s.pc t q →
      s'.link = s.link → s'.Knows Q t q →
      (∀ u, u ≠ t → (s.pc u).number ≠ none → s'.sessions = s.sessions ∧ s'.casts = s.casts) →
      ∀ u, s'.ThreadInv Q u := by
    intro t p q hp hplace hpc hlink hknows hshared
    refine .moved hI.thread hpc (fun u _ i => by rw [hlink]) hshared (fun i _ => ?_) hknows
    rw [hlink]
    exact hI.idle hp (hnone hplace i)
  -- one that holds the lock is seen by nobody inside a loop
  have halone : ∀ {t}, 0 < (s.pc t).held → ∀ u, u ≠ t → (s.pc u).number ≠ none →
      s'.sessions = s.sessions ∧ s'.casts = s.casts := fun ht u hu hn =>
    absurd (number_eq_none hI.held ht hu) hn
  have hsame : s'.sessions = s.sessions → s'.casts = s.casts → ∀ {t : Tid}, ∀ u, u ≠ t →
      (s.pc u).number ≠ none → s'.sessions = s.sessions ∧ s'.casts = s.casts :=
    fun hsessions hcasts _ _ _ _ => ⟨hsessions, hcasts⟩
  cases h with
  | broadcast t b hpc => exact hmove hpc rfl rfl rfl hok (hsame rfl rfl)
  | edit t add i hpc => exact hmove hpc rfl rfl rfl trivial (hsame rfl rfl)
  | acquire t b lock hpc hlock =>
      have hb : Q b := hI.knows hpc
      refine hmove hpc rfl rfl rfl ⟨hb, List.getElem?_concat_length⟩ fun u hu hn => ?_
      have hu' := number_eq_none hheld (t := t) (by rw [goto_pc_self]; exact Nat.one_pos) hu
      rw [goto_pc_of_ne _ _ _ hu] at hu'
      exact absurd hu' hn
  | call t n b last i x hpc hi hx =>
      obtain ⟨hb, hcast⟩ := hI.knows hpc
      have hmem : i ∈ s.sessions := (Finset.mem_filter.mp (mem_behind_of_following hi)).1
      refine .moved hI.thread rfl
        (fun u hu j => update_link_pc hx (fun e => hu (Option.some.inj e).symm) j)
        (hsame rfl rfl) (fun j hj => ?_) ⟨hb, hcast, hmem, fun b' hb' => ?_⟩
      · exact hI.idle_update hpc (fun j _ => hnone rfl j) x fun e => hj (congrArg some e.symm)
      · have hx' : ((s.setLink i x []).link i).sender.pc t = x.sender.pc t :=
          congrArg (·.sender.pc t) (Function.update_self i x s.link)
        have htoPush := PacketLink.toPush_of_call hx
        exact Option.some.inj ((hx' ▸ hb').symm.trans htoPush)
  | finish t n b last hpc hi => exact hmove hpc rfl rfl rfl trivial (hsame rfl rfl)
  | returned t n b i hpc hidle =>
      obtain ⟨hb, hcast, -, -⟩ := hI.knows hpc
      refine .moved hI.thread rfl (fun _ _ _ => rfl) (hsame rfl rfl) (fun j _ => ?_) ⟨hb, hcast⟩
      by_cases hj : j = i
      · exact hj ▸ hidle
      · exact hI.idle hpc fun e => hj (Option.some.inj e).symm
  | send t n b i x hpc hx =>
      obtain ⟨hb, hcast, hmem, hpush⟩ := hI.knows hpc
      refine .moved (p := .send n b i) hI.thread ?_
        (fun u hu j => update_link_pc hx (fun e => hu (Option.some.inj e).symm) j)
        (hsame rfl rfl) (fun j hj => ?_) ⟨hb, hcast, hmem, fun b' hb' => ?_⟩
      · rw [← hpc, Function.update_eq_self]
        rfl
      · exact hI.idle_update hpc (fun j hj e => hj (Option.some.inj e).symm) x
          fun e => hj (congrArg some e.symm)
      · have hx' : (((s.setLink i x ((s.link i).pushes (some n) (.send (.run t)))).skip i n
            ((s.link i).sender.skips t)).link i).sender.pc t = x.sender.pc t :=
          congrArg (·.sender.pc t) (Function.update_self i x s.link)
        rw [hx'] at hb'
        cases PacketLink.sendEffect_of_next (some n) hx with
        | keep htoPush => exact hpush b' (htoPush ▸ hb')
        | push _ _ htoPush | skip _ _ htoPush => cases htoPush.symm.trans hb'
  | release t hpc => exact hmove hpc rfl rfl rfl trivial (hsame rfl rfl)
  | editAcquire t add i lock hpc hlock =>
      exact hmove hpc rfl rfl rfl trivial (hsame rfl rfl)
  | editChange t add i hpc =>
      exact hmove hpc rfl rfl rfl trivial (halone (by rw [hpc]; exact Nat.one_pos))
  | editCount t add i hpc => exact hmove hpc rfl rfl rfl trivial (hsame rfl rfl)
  | editRelease t add i hpc => exact hmove hpc rfl rfl rfl trivial (hsame rfl rfl)
  | link i l x hactor hx =>
      have hu : ∀ u, l.actor ≠ some u := fun u e =>
        absurd (hactor.symm.trans e) (Option.some_ne_none u).symm
      exact fun u => (hI.thread u).frame rfl (update_link_pc hx (hu u)) fun _ => ⟨rfl, rfl⟩
  | session i l t x hactor hpc hx =>
      have hfrom : ∀ j, j ≠ i → (l.from i).place ≠ some j := by
        intro j hj
        rcases l.from_eq i with h | h
        · rw [h]
          exact fun e => hj (Option.some.inj e).symm
        · rw [h]
          exact hnone rfl j
      refine .moved hI.thread rfl
        (fun u hu j => update_link_pc hx
          (fun e => hu (Option.some.inj (hactor.symm.trans e)).symm) j)
        (hsame rfl rfl) (fun j hj => ?_) ?_
      · by_cases hji : j = i
        · subst hji
          refine (congrArg (·.sender.pc t) (Function.update_self j x s.link)).trans ?_
          by_contra hidle
          rw [if_neg hidle] at hj
          exact hj rfl
        · exact hI.idle_update hpc hfrom x hji
      · split <;> exact trivial

/-- The links move as links do. -/
theorem links_step (hrun : ∀ x t, P x (.send (.run t)))
    (hcall : ∀ x t b, Q b → P x (.send (.call t b)))
    (hI : BroadcastInv Q k P connected s) {l : BroadcastLabel} (hok : Admits Q P s l)
    (h : Acted k s l s') : ∀ i, Reach (PacketLink.next k) P (.start connected) (s'.link i) := by
  have hupdate : ∀ {i l x}, P (s.link i) l → (s.link i).next k l = some x → ∀ j,
      Reach (PacketLink.next k) P (.start connected) (Function.update s.link i x j) := by
    intro i l x hP hx j
    by_cases hj : j = i
    · subst hj
      rw [Function.update_self]
      exact .step _ _ _ (hI.links j) hP hx
    · rw [Function.update_of_ne hj]
      exact hI.links j
  cases h with
  | call t n b last i x hpc hi hx => exact hupdate (hcall _ t b (hI.knows hpc).1) hx
  | send t n b i x hpc hx => exact hupdate (hrun _ t) hx
  | link i l x hactor hx => exact hupdate hok hx
  | session i l t x hactor hpc hx => exact hupdate hok hx
  | _ => exact hI.links

/-- One more broadcast. -/
theorem Origin.append {casts : List (Multicast.Cast Sid SendBytes)} {i : Sid} {o : Option Nat}
    {b : SendBytes} (h : Origin casts i o b) (c : Multicast.Cast Sid SendBytes) :
    Origin (casts ++ [c]) i o b := by
  intro n hn
  obtain ⟨c', hc', hrest⟩ := h n hn
  exact ⟨c', by rw [List.getElem?_append_left (List.getElem?_eq_some_iff.mp hc').1, hc'], hrest⟩

theorem origins_step (hI : BroadcastInv Q k P connected s) {l : BroadcastLabel}
    (h : Acted k s l s') :
    ∀ i, List.Forall₂ (Origin s'.casts i) (s'.origins i) (s'.link i).sender.sh.sent := by
  have hupdate : ∀ {i l x} (o : Option Nat), (s.link i).next k l = some x →
      (∀ t b, (s.link i).sender.pc t = .sendPush b → l = .send (.run t) → Origin s.casts i o b) →
      ∀ j, List.Forall₂ (Origin s.casts j)
        (Function.update s.origins i (s.origins i ++ (s.link i).pushes o l) j)
        (Function.update s.link i x j).sender.sh.sent := by
    intro i l x o hx ho j
    by_cases hj : j = i
    · subst hj
      rw [Function.update_self, Function.update_self]
      rcases PacketLink.pushes_of_next o hx with ⟨hnil, hsent⟩ | ⟨t, b, hl, hpc, hone, hsent⟩
      · rw [hnil, hsent, List.append_nil]
        exact hI.origins j
      · rw [hone, hsent]
        exact (List.rel_append (hI.origins j) (.cons (ho t b hpc hl) .nil))
    · rw [Function.update_of_ne hj, Function.update_of_ne hj]
      exact hI.origins j
  have hnone : ∀ i b, Origin s.casts i none b := fun _ _ n e =>
    absurd e (Option.some_ne_none n).symm
  cases h with
  | acquire t b lock hpc hlock => exact fun i => (hI.origins i).imp fun _ _ h => h.append _
  | call t n b last i x hpc hi hx => exact hupdate none hx fun _ b _ _ => hnone i b
  | send t n b i x hpc hx =>
      obtain ⟨-, hcast, hmem, hpush⟩ := hI.knows hpc
      refine hupdate (some n) hx fun u b' hu hl m hm => ?_
      obtain rfl := Option.some.inj hm
      cases hl
      exact ⟨_, hcast, (hpush b' (by rw [hu]; rfl)).symm, hmem⟩
  | link i l x hactor hx =>
      have hnil := PacketLink.pushes_of_actor (x := s.link i) hactor none
      exact hnil ▸ hupdate none hx fun _ b _ _ => hnone i b
  | session i l t x hactor hpc hx => exact hupdate none hx fun _ b _ _ => hnone i b
  | _ => exact hI.origins

/-- **A step keeps the invariant.** -/
theorem BroadcastInv.step (hrun : ∀ x t, P x (.send (.run t)))
    (hcall : ∀ x t b, Q b → P x (.send (.call t b)))
    (hI : BroadcastInv Q k P connected s) {l : BroadcastLabel} (hok : Admits Q P s l)
    (h : Acted k s l s') : BroadcastInv Q k P connected s' where
  held := held_step hI h
  thread := thread_step hI hok h
  links := links_step hrun hcall hI hok h
  origins := origins_step hI h

end Step

end BroadcastConf

end ServerCore
