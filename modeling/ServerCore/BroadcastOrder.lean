/-
  File:      ServerCore/BroadcastOrder.lean
  Subject:   In which order the clients get the broadcasts.

  * `exists_multicast`: a run of the service is one of an ordered multicast, in which each session
    gets or misses the broadcasts in the order in which they got the lock.
  * `broadcast_order`: hence any two clients get those they both get in the same order, each once;
    on sessions that stay connected all of them arrive.
-/
import Mathlib.Data.List.ReduceOption
import ServerCore.BroadcastInv

namespace ServerCore

open Trans

namespace BroadcastConf

/-! ## 1. The multicast -/

/-- The sessions a thread inside a loop has not pushed its buffer to yet. -/
def awaiting (s : BroadcastConf) (t : Tid) : Finset Sid :=
  match s.pc t with
  | .loop _ _ last => s.behind last
  | .send _ _ i =>
      if ((s.link i).sender.pc t).toPush.isSome then insert i (s.behind (some i))
      else s.behind (some i)
  | _ => ∅

/-- **The service as an ordered multicast**: a session has in front of it the broadcast whose loop
    has not pushed to it yet. -/
structure Abstracts (s : BroadcastConf) (a : Multicast.State Sid SendBytes) : Prop where
  casts : a.casts = s.casts
  got : ∀ i, (a.member i).got = (s.origins i).reduceOption
  missed : ∀ i, (a.member i).missed = s.skipped i
  pending : ∀ t n, (s.pc t).number = some n → ∀ i,
    (a.member i).pending = if i ∈ s.awaiting t then [n] else []
  quiet : (∀ t, (s.pc t).number = none) → ∀ i, (a.member i).pending = []

theorem behind_none (s : BroadcastConf) : s.behind none = s.sessions :=
  Finset.filter_true_of_mem fun _ _ => rfl

theorem behind_following {s : BroadcastConf} {last : Option Sid} {i : Sid}
    (h : s.following last = some i) : s.behind last = insert i (s.behind (some i)) := by
  have hmem := mem_behind_of_following h
  have hmin : ∀ j ∈ s.behind last, i ≤ j := by
    unfold following at h
    split at h
    · exact fun j hj => Option.some.inj h ▸ Finset.min'_le _ j hj
    · cases h
  ext j
  rw [Finset.mem_insert]
  constructor
  · intro hj
    rcases (hmin j hj).eq_or_lt with rfl | hlt
    · exact .inl rfl
    · exact .inr (Finset.mem_filter.mpr ⟨(Finset.mem_filter.mp hj).1, by simpa using hlt⟩)
  · rintro (rfl | hj)
    · exact hmem
    · obtain ⟨hj, hlt⟩ := Finset.mem_filter.mp hj
      obtain ⟨-, hi⟩ := Finset.mem_filter.mp hmem
      refine Finset.mem_filter.mpr ⟨hj, ?_⟩
      cases last with
      | none => rfl
      | some k =>
          simp only [Option.all_some, decide_eq_true_eq] at hi hlt ⊢
          exact hi.trans hlt

theorem behind_of_following_none {s : BroadcastConf} {last : Option Sid}
    (h : s.following last = none) : s.behind last = ∅ := by
  unfold following at h
  split at h
  · cases h
  · rename_i hne
    exact Finset.not_nonempty_iff_eq_empty.mp hne

theorem not_mem_behind_self (s : BroadcastConf) (i : Sid) : i ∉ s.behind (some i) := fun h =>
  Nat.lt_irrefl i (by simpa using (Finset.mem_filter.mp h).2)

section Simulation

variable {Q : SendBytes → Prop} {k : Mutex.Kind} {P : PacketLink → LinkLabel → Prop}
  {connected : Bool} {s s' : BroadcastConf} {a : Multicast.State Sid SendBytes}

theorem awaiting_congr {t : Tid} (hpc : s'.pc t = s.pc t) (hsessions : s'.sessions = s.sessions)
    (hlink : ∀ i, (s'.link i).sender.pc t = (s.link i).sender.pc t) :
    s'.awaiting t = s.awaiting t := by
  unfold awaiting behind
  rw [hpc, hsessions]
  split
  · rfl
  · rw [hlink]
  · rfl

/-- Inside `Send`, up to the push. -/
theorem awaiting_send {t : Tid} {n : Nat} {b b' : SendBytes} {i : Sid} (hpc : s.pc t = .send n b i)
    (hb' : ((s.link i).sender.pc t).toPush = some b') :
    s.awaiting t = insert i (s.behind (some i)) := by
  rw [awaiting, hpc]
  exact if_pos (congrArg Option.isSome hb')

/-- **A step that is none of the multicast.** -/
theorem Abstracts.moved (hA : s.Abstracts a) {t : Tid} {p : BroadcastPc}
    (hpc : s'.pc = Function.update s.pc t p) (hcasts : s'.casts = s.casts)
    (horigins : ∀ i, (s'.origins i).reduceOption = (s.origins i).reduceOption)
    (hskipped : ∀ i, s'.skipped i = s.skipped i)
    (hother : ∀ u, u ≠ t → (s.pc u).number ≠ none → s'.sessions = s.sessions ∧
      ∀ i, (s'.link i).sender.pc u = (s.link i).sender.pc u)
    (hnumber : p.number = (s.pc t).number)
    (hself : (s.pc t).number ≠ none → s'.awaiting t = s.awaiting t) : s'.Abstracts a := by
  have hnum : ∀ u, (s'.pc u).number = (s.pc u).number := by
    intro u
    by_cases hu : u = t
    · subst hu
      rw [hpc, Function.update_self, hnumber]
    · rw [hpc, Function.update_of_ne hu]
  refine ⟨hA.casts.trans hcasts.symm, fun i => (hA.got i).trans (horigins i).symm,
    fun i => (hA.missed i).trans (hskipped i).symm, fun u n hn i => ?_,
    fun h => hA.quiet fun u => hnum u ▸ h u⟩
  rw [hnum] at hn
  have haw : s'.awaiting u = s.awaiting u := by
    have hne : (s.pc u).number ≠ none := by rw [hn]; exact Option.some_ne_none n
    by_cases hu : u = t
    · subst hu
      exact hself hne
    · obtain ⟨hsessions, hlink⟩ := hother u hu hne
      exact awaiting_congr (hpc ▸ Function.update_of_ne hu ..) hsessions hlink
  rw [haw]
  exact hA.pending u n hn i

/-- The session `i` takes up the broadcast of the thread that is inside `Send` there. -/
theorem Abstracts.taken (hI : BroadcastInv Q k P connected s) (hA : s.Abstracts a) {t : Tid}
    {n : Nat} {b : SendBytes} {i : Sid} {x : PacketLink} (hpc : s.pc t = .send n b i)
    {b' : SendBytes} (hb' : ((s.link i).sender.pc t).toPush = some b')
    (hdone : (x.sender.pc t).toPush = none) (hsame : s'.pc = s.pc) (hcasts : s'.casts = s.casts)
    (hsessions : s'.sessions = s.sessions) (hlink : s'.link = Function.update s.link i x)
    {m : Multicast.Member} (hm : m.pending = [])
    (hgot : ∀ j, (Function.update a.member i m j).got = (s'.origins j).reduceOption)
    (hmissed : ∀ j, (Function.update a.member i m j).missed = s'.skipped j) :
    s'.Abstracts { a with member := Function.update a.member i m } := by
  have hnumber : (s.pc t).number = some n := by rw [hpc]; rfl
  have hafter : s'.awaiting t = s.behind (some i) := by
    rw [awaiting, hsame, hpc]
    dsimp only
    rw [hlink, Function.update_self, hdone, behind, hsessions]
    rfl
  refine ⟨hA.casts.trans hcasts.symm, hgot, hmissed, fun u n' hn j => ?_, fun h => ?_⟩
  · rw [hsame] at hn
    obtain rfl : u = t := by
      by_contra hu
      have hnone := number_eq_none hI.held (by rw [hpc]; exact Nat.one_pos) hu
      exact absurd (hnone.symm.trans hn) (Option.some_ne_none n').symm
    obtain rfl : n = n' := Option.some.inj (hnumber.symm.trans hn)
    rw [hafter]
    show (Function.update a.member i m j).pending = _
    by_cases hj : j = i
    · subst hj
      rw [Function.update_self, hm, if_neg (s.not_mem_behind_self j)]
    · rw [Function.update_of_ne hj, hA.pending u n hnumber j, awaiting_send hpc hb']
      simp only [Finset.mem_insert, hj, false_or]
  · exact absurd ((congrArg _ (congrFun hsame t)).symm.trans (h t))
      (by rw [hnumber]; exact Option.some_ne_none n)

/-- What a push or a skip adds. -/
theorem reduceOption_update {o : Sid → List (Option Nat)} {i : Sid} {pushed : List (Option Nat)}
    (h : pushed.reduceOption = []) (j : Sid) :
    (Function.update o i (o i ++ pushed) j).reduceOption = (o j).reduceOption := by
  by_cases hj : j = i
  · subst hj
    rw [Function.update_self, List.reduceOption_append, h, List.append_nil]
  · rw [Function.update_of_ne hj]

/-- A thread gets the lock: its broadcast is cast to the sessions there are. -/
theorem Abstracts.cast (hA : s.Abstracts a) (hquiet : ∀ u, (s.pc u).number = none) (t : Tid)
    (b : SendBytes) (lock : Mutex.State Tid) :
    ({ s with lock, casts := s.casts ++ [Multicast.Cast.mk b s.sessions] }.goto t
      (.loop s.casts.length b none)).Abstracts
        ⟨a.casts ++ [Multicast.Cast.mk b s.sessions], fun i => if i ∈ s.sessions then
          { a.member i with pending := (a.member i).pending ++ [a.casts.length] }
          else a.member i⟩ := by
  refine ⟨congrArg (· ++ _) hA.casts, fun i => ?_, fun i => ?_, fun u n hn i => ?_, fun h => ?_⟩
  · dsimp only
    split <;> exact hA.got i
  · dsimp only
    split <;> exact hA.missed i
  · by_cases hu : u = t
    · subst hu
      rw [goto_pc_self] at hn
      obtain rfl : s.casts.length = n := Option.some.inj hn
      have haw : ({ s with lock, casts := s.casts ++ [Multicast.Cast.mk b s.sessions] }.goto u
          (.loop s.casts.length b none)).awaiting u = s.sessions := by
        rw [awaiting, goto_pc_self]
        exact behind_none s
      rw [haw, hA.casts]
      dsimp only
      split
      · rw [hA.quiet hquiet i]
        rfl
      · exact hA.quiet hquiet i
    · rw [goto_pc_of_ne _ _ _ hu] at hn
      exact absurd ((hquiet u).symm.trans hn) (Option.some_ne_none n).symm
  · have ht := h t
    rw [goto_pc_self] at ht
    exact absurd ht (Option.some_ne_none _)

/-- **A step inside `Send`**: the session gets the broadcast with the push, and misses it where it
    is not connected. -/
theorem multicast_send (hI : BroadcastInv Q k P connected s) (hA : s.Abstracts a) {t : Tid}
    {n : Nat} {b : SendBytes} {i : Sid} {x : PacketLink} (hpc : s.pc t = .send n b i)
    (hx : (s.link i).next k (.send (.run t)) = some x)
    (hlink : s'.link = Function.update s.link i x) (hsame : s'.pc = s.pc)
    (hcasts : s'.casts = s.casts) (hsessions : s'.sessions = s.sessions)
    (horigins : s'.origins = Function.update s.origins i
      (s.origins i ++ (s.link i).pushes (some n) (.send (.run t))))
    (hskipped : s'.skipped = Function.update s.skipped i
      (s.skipped i ++ if (s.link i).sender.skips t then [n] else [])) :
    ∃ a', Reach Multicast.next always a a' ∧ s'.Abstracts a' := by
  have hbefore : ∀ b', ((s.link i).sender.pc t).toPush = some b' →
      (a.member i).pending = [n] := by
    intro b' hb'
    rw [hA.pending t n (by rw [hpc]; rfl) i, awaiting_send hpc hb']
    exact if_pos (Finset.mem_insert_self ..)
  have hother : ∀ j, j ≠ i → s'.origins j = s.origins j ∧ s'.skipped j = s.skipped j := by
    intro j hj
    rw [horigins, hskipped, Function.update_of_ne hj, Function.update_of_ne hj]
    exact ⟨rfl, rfl⟩
  have hself : s'.origins i = s.origins i ++ (s.link i).pushes (some n) (.send (.run t)) ∧
      s'.skipped i = s.skipped i ++ if (s.link i).sender.skips t then [n] else [] := by
    rw [horigins, hskipped, Function.update_self, Function.update_self]
    exact ⟨rfl, rfl⟩
  -- the member that took up the broadcast has what its session has, and the others have too
  have hmembers : ∀ m : Multicast.Member, m.got = (s'.origins i).reduceOption →
      m.missed = s'.skipped i → ∀ j, (Function.update a.member i m j).got =
        (s'.origins j).reduceOption ∧ (Function.update a.member i m j).missed = s'.skipped j := by
    intro m hgot hmissed j
    by_cases hj : j = i
    · subst hj
      rw [Function.update_self]
      exact ⟨hgot, hmissed⟩
    · obtain ⟨ho, hk⟩ := hother j hj
      rw [Function.update_of_ne hj, ho, hk]
      exact ⟨hA.got j, hA.missed j⟩
  cases PacketLink.sendEffect_of_next (some n) hx with
  | keep htoPush hpushes hskips =>
      have hall : ∀ j, s'.origins j = s.origins j ∧ s'.skipped j = s.skipped j := by
        intro j
        by_cases hj : j = i
        · subst hj
          rw [hself.1, hself.2, hpushes, hskips, List.append_nil, if_neg Bool.false_ne_true,
            List.append_nil]
          exact ⟨rfl, rfl⟩
        · exact hother j hj
      have hpc' : s'.pc = Function.update s.pc t (.send n b i) := by
        rw [← hpc, Function.update_eq_self, hsame]
      refine ⟨a, .start, hA.moved hpc' hcasts (fun j => by rw [(hall j).1]) (fun j => (hall j).2)
        (fun u hu _ => ⟨hsessions, fun j => ?_⟩) (by rw [hpc]) fun _ => ?_⟩
      · rw [hlink]
        exact update_link_pc hx (fun e => hu (Option.some.inj e).symm) j
      · unfold awaiting behind
        rw [hsame, hpc, hlink, hsessions]
        dsimp only
        rw [Function.update_self, htoPush]
  | push b' hb' htoPush hpushes hskips =>
      have hm := hmembers ⟨[], (a.member i).got ++ [n], (a.member i).missed⟩
        (by rw [hself.1, hpushes, List.reduceOption_append, ← hA.got i]; exact rfl)
        (by rw [hself.2, hskips, ← hA.missed i]; exact (List.append_nil _).symm)
      refine ⟨_, .step _ _ (.get i) .start trivial ?_, hA.taken hI hpc hb' htoPush hsame hcasts
        hsessions hlink rfl (fun j => (hm j).1) fun j => (hm j).2⟩
      rw [Multicast.next, Multicast.Member.get_of_pending (hbefore b' hb')]
      rfl
  | skip b' hb' htoPush hpushes hskips =>
      have hm := hmembers ⟨[], (a.member i).got, (a.member i).missed ++ [n]⟩
        (by rw [hself.1, hpushes, List.append_nil, ← hA.got i])
        (by rw [hself.2, hskips, ← hA.missed i]; rfl)
      refine ⟨_, .step _ _ (.miss i) .start trivial ?_, hA.taken hI hpc hb' htoPush hsame hcasts
        hsessions hlink rfl (fun j => (hm j).1) fun j => (hm j).2⟩
      rw [Multicast.next, Multicast.Member.miss_of_pending (hbefore b' hb')]
      rfl

/-- **Each step is one of the multicast**, or none. -/
theorem multicast_step (hI : BroadcastInv Q k P connected s) (hI' : BroadcastInv Q k P connected s')
    (hA : s.Abstracts a) {l : BroadcastLabel} (h : Acted k s l s') :
    ∃ a', Reach Multicast.next always a a' ∧ s'.Abstracts a' := by
  have hstay : s'.Abstracts a → ∃ a', Reach Multicast.next always a a' ∧ s'.Abstracts a' :=
    fun h => ⟨a, .start, h⟩
  have hstep : ∀ {l a'}, Multicast.next a l = some a' → s'.Abstracts a' →
      ∃ a', Reach Multicast.next always a a' ∧ s'.Abstracts a' :=
    fun hs h => ⟨_, .step _ _ _ .start trivial hs, h⟩
  -- a thread moves outside the loops
  have hout : ∀ {t p q}, s.pc t = p → s'.pc = Function.update s.pc t q → p.number = none →
      q.number = none → s'.link = s.link → s'.casts = s.casts → s'.origins = s.origins →
      s'.skipped = s.skipped →
      (s'.sessions = s.sessions ∨ ∀ u, u ≠ t → (s.pc u).number = none) → s'.Abstracts a := by
    intro t p q hp hpc hpn hqn hlink hcasts horigins hskipped hsessions
    refine hA.moved hpc hcasts (fun i => by rw [horigins]) (fun i => by rw [hskipped])
      (fun u hu hn => ⟨?_, fun i => by rw [hlink]⟩) (by rw [hqn, hp, hpn]) fun hn => ?_
    · exact hsessions.resolve_right fun h => hn (h u hu)
    · exact absurd (hp ▸ hpn) hn
  cases h with
  | broadcast t b hpc | edit t add i hpc =>
      exact hstay (hout hpc rfl rfl rfl rfl rfl rfl rfl (.inl rfl))
  | acquire t b lock hpc hlock =>
      have hquiet : ∀ u, (s.pc u).number = none := by
        intro u
        by_cases hu : u = t
        · rw [hu, hpc]
          rfl
        · have hu' := number_eq_none hI'.held (t := t)
            (by rw [goto_pc_self]; exact Nat.one_pos) hu
          rwa [goto_pc_of_ne _ _ _ hu] at hu'
      exact hstep (l := .cast ⟨b, s.sessions⟩) rfl (hA.cast hquiet t b lock)
  | finish t n b last hpc hi =>
      -- nobody is behind the iterator any more
      have hempty : s.awaiting t = ∅ := by
        rw [awaiting, hpc]
        exact behind_of_following_none hi
      refine hstay ⟨hA.casts, hA.got, hA.missed, fun u n' hn i => ?_, fun _ i => ?_⟩
      · by_cases hu : u = t
        · subst hu
          rw [goto_pc_self] at hn
          cases hn
        · rw [goto_pc_of_ne _ _ _ hu,
            number_eq_none hI.held (by rw [hpc]; exact Nat.one_pos) hu] at hn
          cases hn
      · rw [hA.pending t n (by rw [hpc]; rfl) i, hempty]
        exact if_neg (Finset.notMem_empty i)
  | call t n b last i x hpc hi hx =>
      refine hstay (hA.moved rfl rfl (reduceOption_update rfl) (fun _ => rfl)
        (fun u hu _ => ⟨rfl, update_link_pc hx fun e => hu (Option.some.inj e).symm⟩)
        (by rw [hpc]; rfl) fun _ => ?_)
      have htoPush : ((Function.update s.link i x i).sender.pc t).toPush = some b := by
        rw [Function.update_self]
        exact PacketLink.toPush_of_call hx
      rw [awaiting, awaiting, goto_pc_self, hpc]
      refine Eq.trans ?_ (behind_following hi).symm
      exact if_pos (congrArg Option.isSome htoPush)
  | returned t n b i hpc hidle =>
      refine hstay (hA.moved rfl rfl (fun _ => rfl) (fun _ => rfl)
        (fun _ _ _ => ⟨rfl, fun _ => rfl⟩) (by rw [hpc]; rfl) fun _ => ?_)
      rw [awaiting, awaiting, goto_pc_self, hpc]
      dsimp only
      rw [hidle]
      rfl
  | send t n b i x hpc hx => exact multicast_send hI hA hpc hx rfl rfl rfl rfl rfl rfl
  | release t hpc => exact hstay (hout hpc rfl rfl rfl rfl rfl rfl rfl (.inl rfl))
  | editAcquire t add i lock hpc hlock =>
      exact hstay (hout hpc rfl rfl rfl rfl rfl rfl rfl (.inl rfl))
  | editChange t add i hpc =>
      refine hstay (hout hpc rfl rfl rfl rfl rfl rfl rfl (.inr fun u hu => ?_))
      exact number_eq_none hI.held (by rw [hpc]; exact Nat.one_pos) hu
  | editCount t add i hpc => exact hstay (hout hpc rfl rfl rfl rfl rfl rfl rfl (.inl rfl))
  | editRelease t add i hpc => exact hstay (hout hpc rfl rfl rfl rfl rfl rfl rfl (.inl rfl))
  | link i l x hactor hx =>
      have hlink : ∀ u j, (Function.update s.link i x j).sender.pc u = (s.link j).sender.pc u :=
        fun u => update_link_pc hx fun e =>
          absurd (hactor.symm.trans e) (Option.some_ne_none u).symm
      exact hstay (hA.moved (Function.update_eq_self 0 s.pc).symm rfl (reduceOption_update rfl)
        (fun _ => rfl) (fun u _ _ => ⟨rfl, hlink u⟩) rfl fun _ => awaiting_congr rfl rfl (hlink 0))
  | session i l t x hactor hpc hx =>
      have hfrom : (s.pc t).number = none := by
        rw [hpc]
        rcases l.from_eq i with h | h <;> rw [h] <;> rfl
      have hpushed : ((s.link i).pushes none l).reduceOption = [] := by
        rcases PacketLink.pushes_of_next none hx with ⟨hnil, -⟩ | ⟨-, -, -, -, hone, -⟩
        · rw [hnil]
          rfl
        · rw [hone]
          rfl
      refine hstay (hA.moved rfl rfl (reduceOption_update hpushed) (fun _ => rfl)
        (fun u hu _ => ⟨rfl, update_link_pc hx fun e =>
          hu (Option.some.inj (hactor.symm.trans e)).symm⟩) ?_ fun hn => absurd hfrom hn)
      rw [hfrom]
      split <;> rfl

end Simulation

/-! ## 2. The order of the broadcasts -/

/-- What is broadcast are packets, and writes transmit all their bytes. -/
abbrev BroadcastsWhole : BroadcastConf → BroadcastLabel → Prop :=
  Admits WellFormedPacket PacketLink.SendsWhole

/-- And no error occurs. -/
abbrev BroadcastsWell : BroadcastConf → BroadcastLabel → Prop :=
  Admits WellFormedPacket PacketLink.SendsWell

/-- The origins of the packets that the client of session `i` was delivered. -/
def arrivals (s : BroadcastConf) (i : Sid) : List (Option Nat) :=
  (s.origins i).take (s.link i).pipe.delivered.length

/-- The broadcasts among them. -/
def received (s : BroadcastConf) (i : Sid) : List Nat := (s.arrivals i).reduceOption

/-- **The clients get the broadcasts in one order.** -/
structure Ordered (s : BroadcastConf) : Prop where
  /-- what arrives as a broadcast has its buffer, and is for this client -/
  arrived : ∀ i (j n : Nat), (s.arrivals i)[j]? = some (some n) →
    ∃ c : Multicast.Cast Sid SendBytes, s.casts[n]? = some c ∧ i ∈ c.audience ∧
      (s.link i).pipe.delivered[j]? = some c.message
  /-- each client gets the broadcasts in the order in which they got the lock, and once each -/
  ascending : ∀ i, (s.received i).Pairwise (· < ·)
  /-- so any two have those they both got in the same order -/
  common : ∀ i j, (s.received i).filter (· ∈ s.received j) =
    (s.received j).filter (· ∈ s.received i)
  /-- a broadcast that is over was sent to each of its sessions, or skipped it, but not both -/
  handled : ∀ n c i, (∀ t, (s.pc t).number ≠ some n) → s.casts[n]? = some c → i ∈ c.audience →
    (some n ∈ s.origins i ∧ n ∉ s.skipped i) ∨ (some n ∉ s.origins i ∧ n ∈ s.skipped i)

/-- No thread is in the service or a session, every write is handled, and nothing is on the way. -/
def AtRest (s : BroadcastConf) : Prop :=
  (∀ t, s.pc t = .out) ∧
    ∀ i, (s.link i).sender.sh.writes = [] ∧ (s.link i).pipe.onWay = []

section Order

variable {Q : SendBytes → Prop} {k : Mutex.Kind} {P : PacketLink → LinkLabel → Prop}
  {connected : Bool} {s s' : BroadcastConf}

/-- **Every run is one of the multicast.** -/
theorem exists_multicast (hrun : ∀ x t, P x (.send (.run t)))
    (hcall : ∀ x t b, Q b → P x (.send (.call t b)))
    (hr : Reach (next k) (Admits Q P) (start connected) s) : BroadcastInv Q k P connected s ∧
      ∃ a, Reach Multicast.next always Multicast.empty a ∧ s.Abstracts a := by
  have hempty : (start connected).Abstracts Multicast.empty :=
    ⟨rfl, fun _ => rfl, fun _ => rfl, fun _ n h => absurd h (Option.some_ne_none n).symm,
      fun _ _ => rfl⟩
  obtain ⟨a, ha, hI, hA⟩ := hr.simulate
    (R := fun s a => BroadcastInv Q k P connected s ∧ s.Abstracts a)
    ⟨broadcastInv_start Q k P connected, hempty⟩ fun s s' l a hR hok hs => by
      have h := acted_of_next hs
      have hI' := hR.1.step hrun hcall hok h
      obtain ⟨a', ha', hA'⟩ := multicast_step hR.1 hI' hR.2 h
      exact ⟨a', ha', hI', hA'⟩
  exact ⟨hI, a, ha, hA⟩

theorem forall₂_getElem? {α β : Type} {R : α → β → Prop} {l : List α} {l' : List β}
    (h : List.Forall₂ R l l') {j : Nat} {x : α} (hx : l[j]? = some x) :
    ∃ y, l'[j]? = some y ∧ R x y := by
  obtain ⟨hlen, hget⟩ := List.forall₂_iff_get.mp h
  obtain ⟨hj, rfl⟩ := List.getElem?_eq_some_iff.mp hx
  have hj' : j < l'.length := hlen ▸ hj
  exact ⟨l'[j], List.getElem?_eq_getElem hj', hget j hj hj'⟩

/-- A session has only the broadcast in front of it that a thread is inside of. -/
theorem Abstracts.not_mem_pending {a : Multicast.State Sid SendBytes} (hA : s.Abstracts a) {n : Nat}
    (hover : ∀ t, (s.pc t).number ≠ some n) (i : Sid) : n ∉ (a.member i).pending := by
  by_cases hquiet : ∀ t, (s.pc t).number = none
  · rw [hA.quiet hquiet i]
    exact List.not_mem_nil
  · obtain ⟨t, ht⟩ := not_forall.mp hquiet
    obtain ⟨m, hm⟩ := Option.ne_none_iff_exists'.mp ht
    rw [hA.pending t m hm i]
    split
    · rintro hn
      exact hover t (List.mem_singleton.mp hn ▸ hm)
    · exact List.not_mem_nil

/-- **A broadcast that is over** was sent to each of its sessions, or skipped it. -/
theorem Abstracts.handled {a : Multicast.State Sid SendBytes} (hA : s.Abstracts a)
    (ha : Reach Multicast.next always Multicast.empty a) {n : Nat}
    {c : Multicast.Cast Sid SendBytes} {i : Sid} (hover : ∀ t, (s.pc t).number ≠ some n)
    (hc : s.casts[n]? = some c) (hi : i ∈ c.audience) :
    (some n ∈ s.origins i ∧ n ∉ s.skipped i) ∨ (some n ∉ s.origins i ∧ n ∈ s.skipped i) := by
  have hM := Multicast.inv_of_reach ha i
  have hhandled := hM.handled n c (hA.casts ▸ hc) hi
  have hapart := hM.apart n
  rw [hA.got i, hA.missed i, List.reduceOption_mem_iff] at hhandled
  rw [hA.got i, hA.missed i, List.reduceOption_mem_iff] at hapart
  rcases hhandled with hgot | hmissed | hin
  · exact .inl ⟨hgot, hapart hgot⟩
  · exact .inr ⟨fun hgot => hapart hgot hmissed, hmissed⟩
  · exact absurd hin (hA.not_mem_pending hover i)

/-- The broadcasts a client received ascend. -/
theorem Abstracts.ascending {a : Multicast.State Sid SendBytes} (hA : s.Abstracts a)
    (ha : Reach Multicast.next always Multicast.empty a) (i : Sid) :
    (s.received i).Pairwise (· < ·) := by
  have hgot := (List.pairwise_append.mp (Multicast.inv_of_reach ha i).got).1
  rw [hA.got i] at hgot
  exact hgot.sublist ((List.take_sublist _ _).filterMap _)

/-- What arrives from a broadcast is its buffer. -/
theorem BroadcastInv.arrived
    (hI : BroadcastInv WellFormedPacket k PacketLink.SendsWhole connected s) {i : Sid} {j n : Nat}
    (hn : (s.arrivals i)[j]? = some (some n)) :
    ∃ c, s.casts[n]? = some c ∧ i ∈ c.audience ∧
      (s.link i).pipe.delivered[j]? = some c.message := by
  obtain ⟨hj, hn⟩ : j < (s.link i).pipe.delivered.length ∧ (s.origins i)[j]? = some (some n) := by
    rw [arrivals, List.getElem?_take] at hn
    split at hn
    · rename_i hj
      exact ⟨hj, hn⟩
    · cases hn
  obtain ⟨b, hb, horigin⟩ := forall₂_getElem? (hI.origins i) hn
  obtain ⟨c, hc, rfl, hmem⟩ := horigin n rfl
  refine ⟨c, hc, hmem, ?_⟩
  obtain ⟨later, hlater⟩ := (PacketLink.LinkInv.of_reach (hI.links i)).order
  rw [← hlater, List.getElem?_append_left hj] at hb
  exact hb

/-- A connected session without errors skips nothing. -/
theorem skipped_step (hI : BroadcastInv WellFormedPacket k PacketLink.SendsWell true s)
    (hskipped : ∀ i, s.skipped i = []) {l : BroadcastLabel} (h : Acted k s l s') (i : Sid) :
    s'.skipped i = [] := by
  cases h with
  | send t n b j x hpc hx =>
      have hconnected := (FlowInv.of_reach (PacketLink.reach_sender (hI.links j))).connected
      have hskips : (s.link j).sender.skips t = false := by
        unfold SendConf.skips
        split
        · rw [hconnected]
          rfl
        · rfl
      show Function.update s.skipped j (s.skipped j ++ _) i = []
      rw [hskips, hskipped j]
      by_cases hi : i = j
      · subst hi
        exact Function.update_self ..
      · rw [Function.update_of_ne hi]
        exact hskipped i
  | _ => exact hskipped i

/-- **At rest all have arrived.** -/
theorem received_of_atRest (hI : BroadcastInv WellFormedPacket k PacketLink.SendsWell true s)
    (hskipped : ∀ i, s.skipped i = []) (hO : s.Ordered) (hrest : s.AtRest) {n : Nat}
    {c : Multicast.Cast Sid SendBytes} {i : Sid} (hc : s.casts[n]? = some c)
    (hi : i ∈ c.audience) : n ∈ s.received i := by
  obtain ⟨hout, hlinks⟩ := hrest
  have hidle : (s.link i).AtRest :=
    ⟨fun t => hI.idle (hout t) (Option.some_ne_none i).symm, hlinks i⟩
  obtain ⟨hdelivered, -⟩ := PacketLink.delivered_of_atRest (hI.links i) hidle
  have hsent : some n ∈ s.origins i := by
    have hover : ∀ t, (s.pc t).number ≠ some n := fun t => by
      rw [hout t]
      exact (Option.some_ne_none n).symm
    rcases hO.handled n c i hover hc hi with ⟨h, -⟩ | ⟨-, h⟩
    · exact h
    · rw [hskipped i] at h
      cases h
  have hall : s.arrivals i = s.origins i := by
    refine List.take_of_length_le (Nat.le_of_eq ?_)
    rw [hdelivered]
    exact (hI.origins i).length_eq
  rw [received, hall]
  exact List.reduceOption_mem_iff.mpr hsent

theorem admits_sendsWhole {s : BroadcastConf} {l : BroadcastLabel}
    (h : BroadcastsWell s l) : BroadcastsWhole s l := by
  cases l with
  | link i l => exact PacketLink.sendsWhole_of_sendsWell h
  | _ => exact h

/-- The invariant, and the order, of every run. -/
theorem ordered_of_reach (hr : Reach (next k) BroadcastsWhole (start connected) s) :
    s.Ordered := by
  obtain ⟨hI, a, ha, hA⟩ := exists_multicast (fun _ _ => ⟨trivial, trivial⟩)
    (fun _ _ _ h => ⟨trivial, h⟩) hr
  exact {
    arrived := fun _ _ _ hn => hI.arrived hn
    ascending := hA.ascending ha
    common := fun i j => Multicast.common_order (hA.ascending ha i) (hA.ascending ha j)
    handled := fun _ _ _ hover hc hi => hA.handled ha hover hc hi }

theorem inv_of_reach_well (hr : Reach (next k) BroadcastsWell (start true) s) :
    BroadcastInv WellFormedPacket k PacketLink.SendsWell true s ∧ ∀ i, s.skipped i = [] := by
  refine hr.invariant (I := fun s => BroadcastInv WellFormedPacket k PacketLink.SendsWell true s ∧
    ∀ i, s.skipped i = []) ⟨broadcastInv_start _ k _ true, fun _ => rfl⟩ fun s s' l hI hok hs => ?_
  have h := acted_of_next hs
  exact ⟨hI.1.step (fun _ _ => ⟨trivial, trivial, trivial⟩)
    (fun _ _ _ hb => ⟨trivial, trivial, hb⟩) hok h, skipped_step hI.1 hI.2 h⟩

/-- **The order of the broadcasts.** Whatever the threads broadcast, send, add and release, and
    whatever the writes and reads do, where writes transmit all their bytes the clients get the
    broadcasts in one order. On sessions that stay connected, without errors, at rest every
    broadcast has arrived at all the sessions there were when it got the lock. -/
theorem broadcast_order (k : Mutex.Kind) :
    (∀ connected s, Reach (next k) BroadcastsWhole (start connected) s →
      s.Ordered) ∧
    (∀ s, Reach (next k) BroadcastsWell (start true) s → s.AtRest →
      ∀ n c i, s.casts[n]? = some c → i ∈ c.audience → n ∈ s.received i) := by
  refine ⟨fun _ _ hr => ordered_of_reach hr, fun s hr hrest n c i hc hi => ?_⟩
  obtain ⟨hI, hskipped⟩ := inv_of_reach_well hr
  exact received_of_atRest hI hskipped
    (ordered_of_reach (hr.mono (fun _ _ h => admits_sendsWhole h) fun _ _ _ h => h)) hrest hc hi

end Order

instance (s : BroadcastConf) : (l : BroadcastLabel) → Decidable (BroadcastsWell s l)
  | .broadcast _ b => inferInstanceAs (Decidable (WellFormedPacket b))
  | .link i l => inferInstanceAs (Decidable ((s.link i).SendsWell l))
  | .edit _ _ _ | .run _ => .isTrue trivial

/-- Thread `t` adds session `i`. -/
def addRun (t : Tid) (i : Sid) : List BroadcastLabel := .edit t true i :: List.replicate 4 (.run t)

/-- Thread `t` broadcasts `b` in `n` actions. -/
def broadcastRun (t : Tid) (b : SendBytes) (n : Nat) : List BroadcastLabel :=
  .broadcast t b :: List.replicate n (.run t)

/-- The only write of session `i` transmits `n` bytes, and is handled on thread `t`. -/
def writtenRun (t : Tid) (i : Sid) (n : Nat) : List BroadcastLabel :=
  (completionRun t n 5).map fun l => .link i (.send l)

/-- Two threads broadcast to two clients. -/
def twoBroadcasts : List BroadcastLabel :=
  addRun 0 1 ++ addRun 0 0 ++ broadcastRun 1 [5, 0, 1, 0, 9] 27 ++ writtenRun 0 1 5 ++
    writtenRun 0 0 5 ++ broadcastRun 2 [4, 0, 2, 0] 27 ++ writtenRun 0 0 4 ++ writtenRun 0 1 4

set_option maxRecDepth 20000 in
theorem twoBroadcasts_run : ∃ s, exec (next .plain) BroadcastsWell (start true)
    twoBroadcasts = some s ∧ (∀ t, s.pc t = .out) ∧ (∀ i, (s.link i).sender.sh.writes = []) ∧
      (∀ i, (s.link i).pipe.onWay = if i < 2 then [5, 0, 1, 0, 9, 4, 0, 2, 0] else []) ∧
      s.casts = [⟨[5, 0, 1, 0, 9], {0, 1}⟩, ⟨[4, 0, 2, 0], {0, 1}⟩] := by
  refine ⟨_, rfl, fun t => ?_, fun i => ?_, fun i => ?_, rfl⟩
  · rcases t with _ | _ | _ | t <;> rfl
  · rcases i with _ | _ | i <;> rfl
  · rcases i with _ | _ | i <;> rfl

/-- A read that completes takes the bytes off the way, and touches nothing else. -/
theorem exists_read {k : Mutex.Kind} {s : BroadcastConf}
    (hr : Reach (next k) BroadcastsWell (start true) s) (i : Sid) {n : Nat}
    (h1 : 1 ≤ n) (hle : n ≤ (s.link i).pipe.onWay.length) (hsize : (n : Int) ≤ Session.bufferSize) :
    ∃ s', Reach (next k) BroadcastsWell (start true) s' ∧ s'.pc = s.pc ∧
      s'.casts = s.casts ∧
      (∀ j, (s'.link j).sender.sh.writes = (s.link j).sender.sh.writes) ∧
      ∀ j, (s'.link j).pipe.onWay =
        if j = i then (s.link i).pipe.onWay.drop n else (s.link j).pipe.onWay := by
  have hlink := (inv_of_reach_well hr).1.links i
  obtain ⟨r, hread⟩ := ((PacketLink.LinkInv.of_reach (hlink.mono
    (fun _ _ h => PacketLink.sendsWhole_of_sendsWell h) fun _ _ _ h => h)).carries k).reads n h1
      hle hsize
  have hnext : s.next k (.link i (.read n)) = some (s.setLink i
      { s.link i with pipe := ⟨(s.link i).pipe.onWay.drop n, r⟩ } []) := by
    rw [next, linkStep, hread]
    rfl
  refine ⟨_, Reach.step _ _ (.link i (.read n)) hr trivial hnext, rfl, rfl, fun j => ?_,
    fun j => ?_⟩
  · show (Function.update s.link i _ j).sender.sh.writes = _
    by_cases hj : j = i
    · subst hj
      rw [Function.update_self]
    · rw [Function.update_of_ne hj]
  · show (Function.update s.link i _ j).pipe.onWay = _
    by_cases hj : j = i
    · subst hj
      rw [Function.update_self, if_pos rfl]
    · rw [Function.update_of_ne hj, if_neg hj]

/-- Both clients read; one of them its packets at once, the other the first of them in parts. -/
theorem broadcast_order_two_clients :
    ∃ s, Reach (next .plain) BroadcastsWell (start true) s ∧ s.Ordered ∧
      s.casts.map (·.message) = [[5, 0, 1, 0, 9], [4, 0, 2, 0]] ∧
      ∀ i ∈ ({0, 1} : Finset Sid), ∀ n < 2, n ∈ s.received i := by
  obtain ⟨s, hs, hpc, hwrites, hway, hcasts⟩ := twoBroadcasts_run
  obtain ⟨s₀, h₀, hpc₀, hcasts₀, hwrites₀, hway₀⟩ := exists_read (Reach.of_exec _ hs) 0 (n := 9)
    (by decide) (by rw [hway]; decide) (by decide)
  obtain ⟨s₁, h₁, hpc₁, hcasts₁, hwrites₁, hway₁⟩ := exists_read h₀ 1 (n := 2) (by decide)
    (by simp only [hway₀, hway]; decide) (by decide)
  obtain ⟨s₂, h₂, hpc₂, hcasts₂, hwrites₂, hway₂⟩ := exists_read h₁ 1 (n := 7) (by decide)
    (by simp only [hway₁, hway₀, hway]; decide) (by decide)
  have hcasts' : s₂.casts = [⟨[5, 0, 1, 0, 9], {0, 1}⟩, ⟨[4, 0, 2, 0], {0, 1}⟩] := by
    rw [hcasts₂, hcasts₁, hcasts₀, hcasts]
  have hrest : s₂.AtRest := by
    refine ⟨fun t => by rw [hpc₂, hpc₁, hpc₀, hpc], fun i => ⟨?_, ?_⟩⟩
    · rw [hwrites₂, hwrites₁, hwrites₀, hwrites]
    · simp only [hway₂, hway₁, hway₀, hway]
      rcases i with _ | _ | i <;> rfl
  refine ⟨s₂, h₂, (broadcast_order .plain).1 true _
    (h₂.mono (fun _ _ h => admits_sendsWhole h) fun _ _ _ h => h), by rw [hcasts']; rfl, ?_⟩
  intro i hi n hn
  have hreceived := (broadcast_order .plain).2 s₂ h₂ hrest n
  rw [hcasts'] at hreceived
  rcases n with _ | _ | n
  · exact hreceived _ i rfl hi
  · exact hreceived _ i rfl hi
  · omega

end BroadcastConf

end ServerCore
