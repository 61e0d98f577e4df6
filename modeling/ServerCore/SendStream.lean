/-
  File:      ServerCore/SendStream.lean
  Subject:   The outgoing byte stream: what the wire carries of what was sent.

  The bytes of the buffers pushed to `_sendQueue` are on the wire, in flight (drained by a thread
  that is issuing the write, or in a write that has not transmitted), or queued, in this order,
  but for those that are lost. `ProcessSend` does not look at how much of a write was
  transmitted: the untransmitted rest of a write is lost.

  * `StreamInv`: the account of the bytes, with the lost ones counted.
  * `StreamInv.step`: a step loses bytes only where a write transmits less than its buffers, or
    fails.
  * `send_stream_law`: on the runs whose writes transmit all their buffers the wire carries a
    prefix of what was sent, and all of it when nothing is in flight or queued; after one write
    that transmits less, it never again carries all of it.
-/
import ServerCore.SendToken

namespace ServerCore

open Trans

/-! ## 1. The account of the bytes -/

/-- The bytes of a write that it has not transmitted but still may. -/
def Write.pending (w : Write) : List UInt8 :=
  match w.transferred with
  | none => w.buffers.flatten
  | some _ => []

/-- **The stream invariant**: the bytes sent, divided into the wire, the bytes `mid` in flight and
    the queue; `lost` bytes are missing. -/
structure StreamInv (c : SendConf) (lost : Nat) (mid : List UInt8) : Prop where
  length : c.sh.wire.length + mid.length + c.sh.sendQueue.flatten.length + lost =
    c.sh.sent.flatten.length
  stream : lost = 0 → c.sh.wire ++ mid ++ c.sh.sendQueue.flatten = c.sh.sent.flatten
  write : ∀ w ∈ c.sh.writes, mid = w.pending
  batch : ∀ t, (c.pc t).token = true → mid = (c.pc t).batch.flatten
  rest : c.sh.writes = [] → (∀ t, (c.pc t).token = false) → mid = []

theorem streamInv_fresh (connected : Bool) : StreamInv (.fresh connected) 0 [] where
  length := rfl
  stream _ := rfl
  write w h := by cases h
  batch t h := by cases h
  rest _ _ := rfl

theorem Pc.batch_of_token {p : Pc} (h : p.token = false) : p.batch = [] := by
  cases p with
  | regRelease => cases h
  | regIssue => cases h
  | _ => rfl

/-- Every write transmits all the bytes of its buffers, and none fails. -/
def FullWrites (c : SendConf) : Label → Prop
  | .transmit i n => ∀ w ∈ c.sh.writes[i]?, n = w.buffers.flatten.length
  | .fail _ _ => False
  | _ => True

instance (c : SendConf) : (l : Label) → Decidable (FullWrites c l)
  | .transmit i n =>
      inferInstanceAs (Decidable (∀ w ∈ c.sh.writes[i]?, n = w.buffers.flatten.length))
  | .fail _ _ => .isFalse id
  | .call _ _ | .run _ | .complete _ _ | .disconnect | .connect => .isTrue trivial

/-- An action that leaves the data alone leaves the account alone. -/
theorem StreamInv.leave {k : Mutex.Kind} {c : SendConf} {lost : Nat} {mid : List UInt8} {t : Tid}
    {sh : SendState} {p : Pc} (hT : TokenInv c) (hI : StreamInv c lost mid)
    (hs : localStep k t c.sh (c.pc t) = some (sh, p)) (hbatch : p.batch = (c.pc t).batch)
    (hq : sh.sendQueue = c.sh.sendQueue) (hsent : sh.sent = c.sh.sent)
    (hw : sh.writes = c.sh.writes) : StreamInv (c.set t sh p) lost mid := by
  have hwire := (localStep_data hs).2
  -- the bytes in flight are those of the thread, where it has the token before or after
  have hmid : p.token = true ∨ (c.pc t).token = true → mid = p.batch.flatten := by
    intro h
    cases htok : (c.pc t).token with
    | true => rw [hbatch, hI.batch t htok]
    | false =>
        rw [hbatch, Pc.batch_of_token htok]
        cases localStep_token hs with
        | take _ _ hr =>
            obtain ⟨hnone, hnil⟩ := hT.none_of_clear hr
            exact hI.rest hnil hnone
        | keep hp =>
            rw [hp, htok] at h
            simp at h
        | drop hp => exact absurd (htok.symm.trans hp) Bool.false_ne_true
        | issue _ hp => exact absurd (htok.symm.trans hp) Bool.false_ne_true
  refine
    { length := by simpa only [SendConf.set_sh, hwire, hq, hsent] using hI.length
      stream := by simpa only [SendConf.set_sh, hwire, hq, hsent] using hI.stream
      write := by simpa only [SendConf.set_sh, hw] using hI.write
      batch := fun u hu => ?_
      rest := fun hnil hnone => ?_ }
  · rcases token_set_cases hu with ⟨rfl, hp⟩ | ⟨hne, hu'⟩
    · rw [SendConf.set_pc_self]
      exact hmid (.inl hp)
    · rw [SendConf.set_pc_of_ne c sh p hne]
      exact hI.batch u hu'
  · have hp : p.token = false := by
      have := hnone t
      rwa [SendConf.set_pc_self] at this
    by_cases htok : (c.pc t).token = true
    · rw [hmid (.inr htok), Pc.batch_of_token hp, List.flatten_nil]
    · exact hI.rest (hw ▸ hnil) (noToken_of_set (Bool.not_eq_true _ ▸ htok) hnone)

/-- **An action loses nothing.** -/
theorem StreamInv.run {k : Mutex.Kind} {c : SendConf} {lost : Nat} {mid : List UInt8} {t : Tid}
    {sh : SendState} {p : Pc} (hT : TokenInv c) (hI : StreamInv c lost mid)
    (hs : localStep k t c.sh (c.pc t) = some (sh, p)) :
    ∃ mid', StreamInv (c.set t sh p) lost mid' := by
  obtain ⟨hdata, hwire⟩ := localStep_data hs
  cases hdata with
  | leave hbatch hq hsent hw => exact ⟨mid, hI.leave hT hs hbatch hq hsent hw⟩
  | push b hp hp' hq hsent hw =>
      subst hp'
      have hback : ∀ {u}, ((c.set t sh .sendExchange).pc u).token = true →
          u ≠ t ∧ (c.pc u).token = true := by
        intro u hu
        rcases token_set_cases hu with ⟨-, h⟩ | h
        · cases h
        · exact h
      refine ⟨mid, ?_, fun h0 => ?_, fun w hmem => hI.write w (hw ▸ hmem), fun u hu => ?_,
        fun hnil hnone => hI.rest (hw ▸ hnil) (noToken_of_set ?_ hnone)⟩
      · have := hI.length
        simp only [SendConf.set_sh, hwire, hq, hsent, List.flatten_append, List.length_append]
        omega
      · simp only [SendConf.set_sh, hwire, hq, hsent, List.flatten_append, ← hI.stream h0,
          List.append_assoc]
      · obtain ⟨hne, hu'⟩ := hback hu
        rw [SendConf.set_pc_of_ne _ _ _ hne]
        exact hI.batch u hu'
      · rw [hp]
        rfl
  | drain r hp hp' hq hsent hw =>
      -- the token holder drains: nothing was in flight, now the whole queue is
      subst hp'
      have htok : (c.pc t).token = true := by
        rw [hp]
        rfl
      have hmid : mid = [] := by
        rw [hI.batch t htok, hp]
        rfl
      subst hmid
      refine ⟨c.sh.sendQueue.flatten, ?_, fun h0 => ?_, fun w hmem => ?_, fun u hu => ?_,
        fun _ hnone => ?_⟩
      · have := hI.length
        simp only [SendConf.set_sh, hwire, hq, hsent, List.flatten_nil, List.length_nil] at this ⊢
        omega
      · have := hI.stream h0
        simp only [SendConf.set_sh, hwire, hq, hsent, List.flatten_nil, List.append_nil] at this ⊢
        exact this
      · rw [SendConf.set_sh, hw, hT.noWrite t htok] at hmem
        cases hmem
      · rcases token_set_cases hu with ⟨rfl, -⟩ | ⟨hne, hu'⟩
        · rw [SendConf.set_pc_self]
          rfl
        · exact absurd (hT.unique u t hu' htok) hne
      · have := hnone t
        rw [SendConf.set_pc_self] at this
        cases this
  | issue r hp hp' hq hsent hw =>
      have htok : (c.pc t).token = true := by
        rw [hp]
        rfl
      have hmid := hI.batch t htok
      rw [hT.noWrite t htok, List.nil_append] at hw
      refine ⟨mid, ?_, ?_, fun w hmem => ?_, fun u hu => ?_, fun hnil _ => ?_⟩
      · simpa only [SendConf.set_sh, hwire, hq, hsent] using hI.length
      · simpa only [SendConf.set_sh, hwire, hq, hsent] using hI.stream
      · rw [SendConf.set_sh, hw] at hmem
        rw [List.mem_singleton.mp hmem, hmid]
        rfl
      · rcases token_set_cases hu with ⟨-, h⟩ | ⟨hne, hu'⟩
        · rw [hp', Caller.token_return] at h
          cases h
        · exact absurd (hT.unique u t hu' htok) hne
      · rw [SendConf.set_sh, hw] at hnil
        cases hnil

/-- The bytes a step loses: the untransmitted rest of a write. -/
def SendConf.loses (c : SendConf) : Label → Nat
  | .transmit i n =>
      match c.sh.writes[i]? with
      | some w => w.pending.length - n
      | none => 0
  | .fail i _ =>
      match c.sh.writes[i]? with
      | some w => w.pending.length
      | none => 0
  | _ => 0

/-- **Every step keeps the account**, and loses what `loses` says. -/
theorem StreamInv.step {k : Mutex.Kind} {c c' : SendConf} {l : Label} {lost : Nat}
    {mid : List UInt8} (hT : TokenInv c) (hI : StreamInv c lost mid) (h : c.next k l = some c') :
    ∃ mid', StreamInv c' (lost + c.loses l) mid' := by
  -- a write in flight leaves the account
  have hgone : ∀ {i : Nat} {w : Write}, c.sh.writes[i]? = some w → mid = w.pending := fun hw =>
    hI.write _ (List.mem_of_getElem? hw)
  cases stepped_of_next h with
  | call t b hidle =>
      refine ⟨mid, hI.length, hI.stream, hI.write, fun u hu => ?_, fun hnil hnone => ?_⟩
      · rcases token_set_cases hu with ⟨-, h⟩ | ⟨hne, hu'⟩
        · cases h
        · rw [SendConf.set_pc_of_ne _ _ _ hne]
          exact hI.batch u hu'
      · refine hI.rest hnil (noToken_of_set ?_ hnone)
        rw [hidle]
        rfl
  | run t sh p hs => exact hI.run hT hs
  | transmit i n buffers hw hn =>
      have hmid := hgone hw
      have hnone := hT.token_of_write (ne_nil_of_getElem? hw)
      refine ⟨[], ?_, fun h0 => ?_, fun w hmem => ?_, fun u hu => ?_, fun _ _ => rfl⟩
      · have := hI.length
        simp only [SendConf.loses, hw, hmid, Write.pending, List.length_append, List.length_take,
          List.length_nil] at this ⊢
        omega
      · simp only [SendConf.loses, hw, Write.pending] at h0
        have hall : buffers.flatten.take n = buffers.flatten := List.take_of_length_le (by omega)
        have := hI.stream (by omega)
        rw [hmid] at this
        show c.sh.wire ++ buffers.flatten.take n ++ [] ++ c.sh.sendQueue.flatten = _
        rw [hall, List.append_nil]
        exact this
      · have hset : c.sh.writes.set i ⟨buffers, some n⟩ = [⟨buffers, some n⟩] :=
          set_eq_singleton hT.oneWrite hw
        have hw' : w = ⟨buffers, some n⟩ := by
          simpa only [hset, List.mem_singleton] using hmem
        rw [hw']
        rfl
      · rw [hnone u] at hu
        cases hu
  | complete t i n buffers hw hidle =>
      have hmid := hgone hw
      have hnil := eraseIdx_eq_nil hT.oneWrite hw
      have hnone := hT.token_of_write (ne_nil_of_getElem? hw)
      refine ⟨mid, hI.length, hI.stream, fun w hmem => ?_, fun u hu => ?_, fun _ _ => hmid⟩
      · rw [SendConf.set_sh, hnil] at hmem
        cases hmem
      · rcases token_set_cases hu with ⟨rfl, -⟩ | ⟨hne, hu'⟩
        · rw [SendConf.set_pc_self]
          exact hmid
        · rw [hnone u] at hu'
          cases hu'
  | fail i error buffers hw =>
      have hmid := hgone hw
      have hnil := eraseIdx_eq_nil hT.oneWrite hw
      have hnone := hT.token_of_write (ne_nil_of_getElem? hw)
      rw [SendState.handleError_eq]
      refine ⟨[], ?_, fun h0 => ?_, fun w hmem => ?_, fun u hu => ?_, fun _ _ => rfl⟩
      · have := hI.length
        simp only [SendConf.loses, hw, hmid, List.length_nil] at this ⊢
        omega
      · simp only [SendConf.loses, hw] at h0
        have hzero : mid = [] := List.length_eq_zero_iff.mp (by rw [hmid]; omega)
        have := hI.stream (by omega)
        rw [hzero] at this
        exact this
      · rw [hnil] at hmem
        cases hmem
      · rw [hnone u] at hu
        cases hu
  | disconnect => exact ⟨mid, hI.length, hI.stream, hI.write, hI.batch, hI.rest⟩
  | connect => exact ⟨mid, hI.length, hI.stream, hI.write, hI.batch, hI.rest⟩

/-- The account on a run: some bytes are in flight, and some are lost. -/
theorem StreamInv.of_reach {k : Mutex.Kind} {ok : SendConf → Label → Prop} {connected : Bool}
    {c : SendConf} (hr : Reach (SendConf.next k) ok (.fresh connected) c) :
    ∃ lost mid, StreamInv c lost mid := by
  induction hr with
  | start => exact ⟨0, [], streamInv_fresh connected⟩
  | step c c' l hr _ h ih =>
      obtain ⟨lost, mid, hI⟩ := ih
      exact ⟨_, hI.step (.of_reach hr) h⟩

/-! ## 2. The law of the outgoing stream -/

theorem loses_of_fullWrites {c : SendConf} {l : Label} (h : FullWrites c l) : c.loses l = 0 := by
  cases l with
  | transmit i n =>
      simp only [SendConf.loses]
      cases hw : c.sh.writes[i]? with
      | none => rfl
      | some w =>
          have hn : n = w.buffers.flatten.length := h w (by rw [hw]; rfl)
          have hle : w.pending.length ≤ w.buffers.flatten.length := by
            unfold Write.pending
            split
            · exact Nat.le_refl _
            · exact Nat.zero_le _
          simp only
          omega
  | fail => exact h.elim
  | _ => rfl

/-- A write is in flight: one that has not transmitted yet, or one that a thread is issuing. -/
def InFlight (c : SendConf) : Prop :=
  (∃ w ∈ c.sh.writes, w.transferred = none) ∨ ∃ t, (c.pc t).batch ≠ []

/-- **The law of the outgoing stream** in one configuration. -/
structure StreamLaw (c : SendConf) : Prop where
  isPrefix : c.sh.wire <+: c.sh.sent.flatten
  all : ¬ InFlight c → c.sh.sendQueue = [] → c.sh.wire = c.sh.sent.flatten

/-- With nothing in flight the account has no bytes in flight. -/
theorem StreamInv.mid_of_not_inFlight {c : SendConf} {lost : Nat} {mid : List UInt8}
    (hI : StreamInv c lost mid) (h : ¬ InFlight c) : mid = [] := by
  have hbatch : ∀ t, (c.pc t).batch = [] := by
    intro t
    by_cases hb : (c.pc t).batch = []
    · exact hb
    · exact absurd (.inr ⟨t, hb⟩) h
  by_cases hw : c.sh.writes = []
  · by_cases htok : ∃ t, (c.pc t).token = true
    · obtain ⟨t, ht⟩ := htok
      rw [hI.batch t ht, hbatch t, List.flatten_nil]
    · exact hI.rest hw fun t => by simpa using fun ht => htok ⟨t, ht⟩
  · obtain ⟨w, hmem⟩ := List.exists_mem_of_ne_nil _ hw
    rw [hI.write w hmem]
    unfold Write.pending
    split
    · rename_i hnone
      exact absurd (.inl ⟨w, hmem, hnone⟩) h
    · rfl

/-- An account without losses is the law. -/
theorem StreamInv.law {c : SendConf} {mid : List UInt8} (hI : StreamInv c 0 mid) :
    StreamLaw c := by
  have hs := hI.stream rfl
  refine ⟨⟨mid ++ c.sh.sendQueue.flatten, by rw [← List.append_assoc]; exact hs⟩, fun h hq => ?_⟩
  rw [hI.mid_of_not_inFlight h, hq] at hs
  simpa using hs

/-- **When the outgoing stream is what was sent.** On the runs whose writes transmit all their
    bytes the law of the stream holds in every configuration. After a write that transmits less
    the wire is short of what was sent in every configuration, so the law fails in each one with
    nothing in flight and an empty queue. -/
theorem send_stream_law (k : Mutex.Kind) (connected : Bool) :
    (∀ c, Reach (SendConf.next k) FullWrites (.fresh connected) c → StreamLaw c) ∧
    (∀ c c' i n w, Reach (SendConf.next k) always (.fresh connected) c →
      c.sh.writes[i]? = some w → n < w.buffers.flatten.length →
      c.next k (.transmit i n) = some c' →
      ∀ c'', Reach (SendConf.next k) always c' c'' →
        c''.sh.wire.length < c''.sh.sent.flatten.length ∧
        (¬ InFlight c'' → c''.sh.sendQueue = [] → ¬ StreamLaw c'')) := by
  constructor
  · intro c hr
    have hI : ∃ mid, StreamInv c 0 mid := by
      induction hr with
      | start => exact ⟨[], streamInv_fresh connected⟩
      | step c c' l hr hok h ih =>
          obtain ⟨mid, hI⟩ := ih
          have hstep := hI.step (.of_reach hr) h
          rwa [loses_of_fullWrites hok] at hstep
    obtain ⟨mid, hI⟩ := hI
    exact hI.law
  · intro c c' i n w hr hw hn h c'' hr'
    have hreach : Reach (SendConf.next k) always (.fresh connected) c' :=
      .step c c' _ hr trivial h
    -- something is lost, and losses stay
    have hlost : ∃ lost mid, 0 < lost ∧ StreamInv c'' lost mid := by
      induction hr' with
      | start =>
          obtain ⟨lost, mid, hI⟩ := StreamInv.of_reach hr
          obtain ⟨mid', hI'⟩ := hI.step (.of_reach hr) h
          refine ⟨_, mid', ?_, hI'⟩
          have hp : w.pending = w.buffers.flatten := by
            cases stepped_of_next h with
            | transmit _ _ buffers hw' _ =>
                cases hw.symm.trans hw'
                rfl
          simp only [SendConf.loses, hw, hp]
          omega
      | step c₁ c₂ l hr₁ _ h₁ ih =>
          obtain ⟨lost, mid, hpos, hI⟩ := ih
          obtain ⟨mid', hI'⟩ := hI.step (.of_reach (hreach.trans hr₁)) h₁
          exact ⟨_, mid', Nat.lt_of_lt_of_le hpos (Nat.le_add_right _ _), hI'⟩
    obtain ⟨lost, mid, hpos, hI⟩ := hlost
    have hshort : c''.sh.wire.length < c''.sh.sent.flatten.length := by
      have := hI.length
      omega
    refine ⟨hshort, fun hfl hq hlaw => ?_⟩
    rw [hlaw.all hfl hq] at hshort
    exact Nat.lt_irrefl _ hshort

/-- The law on a run whose write transmits both its bytes, and the short wire after one that
    transmits only the first. -/
theorem send_stream_law_runs :
    (∃ c, exec (SendConf.next .plain) FullWrites (.fresh true)
        (sendRun 0 [1, 2] 10 ++ completionRun 0 2 5) = some c ∧ c.sh.wire = [1, 2] ∧
        StreamLaw c) ∧
    (∃ c, exec (SendConf.next .plain) always (.fresh true)
        (sendRun 0 [1, 2] 10 ++ completionRun 0 1 0) = some c ∧
        c.sh.wire.length < c.sh.sent.flatten.length) := by
  refine ⟨⟨_, rfl, rfl, (send_stream_law .plain true).1 _ (.of_exec (sendRun 0 [1, 2] 10 ++
    completionRun 0 2 5) rfl)⟩, ⟨_, rfl, ?_⟩⟩
  exact ((send_stream_law .plain true).2 _ _ 0 1 _ (.of_exec (sendRun 0 [1, 2] 10) rfl) rfl
    (by decide) rfl _ (.of_exec [.complete 0 0] rfl)).1

/-- A write of `[1, 2]` that transmits one byte, and a second `Send`: the wire carries `[1, 3]`,
    not a prefix of `[1, 2, 3]`. -/
theorem stream_gap_after_partial_write :
    ∃ c, Reach (SendConf.next .plain) ErrorFree (.fresh true) c ∧ c.sh.wire = [1, 3] ∧
      c.sh.sent.flatten = [1, 2, 3] ∧ ¬ StreamLaw c :=
  ⟨_, .of_exec (sendRun 0 [1, 2] 10 ++ completionRun 0 1 5 ++ sendRun 0 [3] 10 ++
    [.transmit 0 1]) rfl, rfl, rfl, fun h => absurd h.isPrefix (by decide)⟩

end ServerCore
