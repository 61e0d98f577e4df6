/-
  File:      ServerCore/StressProgress.lean
  Subject:   The counters with which a client follows its stress test (client.cpp).

  The client counts the echoes and adds up their round-trip times in `uint32_t`; the progress is
  `_stressTestReceivedCount * 100` by the number of messages, and where it has reached a further
  multiple of ten a line with the average round-trip time is printed. The product wraps around from
  42949673 echoes on, the sum from 2^32 milliseconds on.

  `RttHistory` is a client with the round-trip times of the echoes it has counted, over all events:
  requests, packets, and the timer. `client_counters_iff`: along a run, progress and averages are
  right exactly if neither the product nor the sum at a line that is due reaches 2^32.
-/
import ServerCore.StressRequest

namespace ServerCore

open Trans

/-! ## 1. The line of an echo -/

/-- `"Stress test progress: "`, with the four numbers that the line shows -/
structure ProgressLine where
  progress : Nat
  received : Nat
  messageCount : Nat
  avgRtt : Nat
  deriving DecidableEq, Repr

/-- The line that is printed where an echo was counted, if any. Its division is one of those that
    `reportProgress` is about. -/
def RttClient.progressLine? (c : RttClient) : Option ProgressLine :=
  if c.progress % 10 = 0 ∧ c.progress ≠ c.lastReportedProgress then
    some ⟨c.progress, c.stressTestReceivedCount, c.stressTestConfig.messageCount,
      c.totalRtt / c.stressTestReceivedCount⟩
  else none

/-- What is printed. -/
theorem RttClient.progressLine?_eq_some {c : RttClient} {line : ProgressLine}
    (h : c.progressLine? = some line) :
    (c.progress % 10 = 0 ∧ c.progress ≠ c.lastReportedProgress) ∧
      line = ⟨c.progress, c.stressTestReceivedCount, c.stressTestConfig.messageCount,
        c.totalRtt / c.stressTestReceivedCount⟩ := by
  unfold progressLine? at h
  split at h
  · rename_i hprints
    exact ⟨hprints, (Option.some.inj h).symm⟩
  · nomatch h

/-! ## 2. The client and what it has counted -/

/-- What happens to the client. -/
inductive ClientEvent where
  /-- RequestStressTest is called -/
  | request (startData : StressTestStartData)
  /-- a packet arrives; an echo, `rtt` milliseconds after its message -/
  | packet (packet : ServerPacket) (rtt : Nat)
  /-- the wait on the timer is over -/
  | expire
  /-- a handler of the timer is called -/
  | timer
  deriving DecidableEq

/-- A client, and the round-trip times of the echoes it has handled in a test since the last request
    that was granted. -/
structure RttHistory where
  client : RttClient
  rtts : List Nat

namespace RttHistory

/-- The round-trip times after a packet. -/
def rttsAfter (h : RttHistory) : ServerPacket → Nat → List Nat
  | .stressData _, rtt => if h.client.stressTestActive then h.rtts ++ [u32 rtt] else h.rtts
  | .stressStart, _ => h.rtts
  | .stressResult _, _ => h.rtts

/-- **One event.** A request is granted where it sends a start. -/
def next (h : RttHistory) : ClientEvent → Option RttHistory
  | .request startData =>
      let (client, packets) := h.client.requestStressTest startData
      some ⟨client, if packets.isEmpty then h.rtts else []⟩
  | .packet p rtt => (h.client.onRecvPacket p rtt).map fun r => ⟨r.1, h.rttsAfter p rtt⟩
  | .expire => h.client.expire.map fun client =>
      { h with client := { h.client with toStressClient := client } }
  | .timer => h.client.onTimer.map fun r =>
      { h with client := { h.client with toStressClient := r.1 } }

/-- A client whose request was granted. -/
def requested (c : RttClient) (startData : StressTestStartData) : RttHistory :=
  ⟨(c.requestStressTest startData).1, []⟩

/-- The counters of `c'` are those of `c`. -/
structure SameCounters (c c' : RttClient) : Prop where
  config : c'.stressTestConfig = c.stressTestConfig
  received : c'.stressTestReceivedCount = c.stressTestReceivedCount
  total : c'.totalRtt = c.totalRtt
  last : c'.lastReportedProgress = c.lastReportedProgress

/-- A request has reset the counters. -/
structure Granted (startData : StressTestStartData) (c : RttClient) : Prop where
  config : c.stressTestConfig = startData
  received : c.stressTestReceivedCount = 0
  total : c.totalRtt = 0
  last : c.lastReportedProgress = 0

/-- **What an event does to the counters**: a request that is granted resets them, an echo in a test
    is counted, and nothing else changes them. -/
inductive Effect (h : RttHistory) (e : ClientEvent) : RttHistory → Prop where
  | granted (startData : StressTestStartData) (client : RttClient)
      (hgranted : Granted startData client) : Effect h e ⟨client, []⟩
  | counted (n rtt : Nat) (client : StressClient) (he : e = .packet (.stressData n) rtt)
      (hactive : h.client.stressTestActive = true)
      (hreport : (h.client.count (u32 rtt)).reportProgress = some client) :
      Effect h e ⟨{ h.client.count (u32 rtt) with toStressClient := client }, h.rtts ++ [u32 rtt]⟩
  | other (client : RttClient) (hsame : SameCounters h.client client) : Effect h e ⟨client, h.rtts⟩

/-- A message that is sent leaves the counters alone. -/
theorem sameCounters_send (c : RttClient) {s : StressClient}
    (hconfig : s.stressTestConfig = c.stressTestConfig)
    (hreceived : s.stressTestReceivedCount = c.stressTestReceivedCount)
    (hlast : s.lastReportedProgress = c.lastReportedProgress) :
    SameCounters c { c with toStressClient := s.sendStressTestData.1 } := by
  unfold StressClient.sendStressTestData
  split
  · exact ⟨hconfig, hreceived, rfl, hlast⟩
  · exact ⟨hconfig, hreceived, rfl, hlast⟩

/-- A request is refused, or it resets the counters and sends a start. -/
theorem requestStressTest_cases (c : RttClient) (startData : StressTestStartData) :
    c.requestStressTest startData = (c, []) ∨
      Granted startData (c.requestStressTest startData).1 ∧
        (c.requestStressTest startData).2 = [.stressStart startData] := by
  unfold RttClient.requestStressTest
  split
  · exact .inl rfl
  · split
    · exact .inl rfl
    · exact .inr ⟨⟨rfl, rfl, rfl, rfl⟩, rfl⟩

/-- An idle client grants what is not too large. -/
theorem granted_of_idle {c : RttClient} (hidle : c.stressTestActive = false)
    {startData : StressTestStartData} (hsize : startData.messageSize ≤ 4000) :
    Granted startData (c.requestStressTest startData).1 := by
  rcases requestStressTest_cases c startData with hrefused | ⟨hgranted, -⟩
  · rcases (c.requestStressTest_eq_self_iff startData).mp hrefused with hactive | hlarge
    · exact absurd (hidle.symm.trans hactive) Bool.noConfusion
    · omega
  · exact hgranted

/-- What an echo does. -/
theorem effect_of_echo {h : RttHistory} {n rtt : Nat} {r : RttClient × List ClientPacket}
    (hr : h.client.onRecvPacket (.stressData n) rtt = some r) :
    h.Effect (.packet (.stressData n) rtt) ⟨r.1, h.rttsAfter (.stressData n) rtt⟩ := by
  unfold RttClient.onRecvPacket at hr
  unfold rttsAfter
  dsimp only at hr ⊢
  cases hactive : h.client.stressTestActive with
  | false =>
      rw [hactive] at hr
      obtain rfl := Option.some.inj hr
      exact .other h.client ⟨rfl, rfl, rfl, rfl⟩
  | true =>
      rw [hactive] at hr
      obtain ⟨client, hreport, rfl⟩ := Option.map_eq_some_iff.mp hr
      rw [if_pos rfl]
      have hcounted := Effect.counted n rtt client rfl hactive hreport
      split
      · exact hcounted
      · exact hcounted

theorem effect_of_next {h h' : RttHistory} {e : ClientEvent} (hs : h.next e = some h') :
    h.Effect e h' := by
  cases e with
  | request startData =>
      simp only [next] at hs
      rcases requestStressTest_cases h.client startData with hrefused | ⟨hgranted, hsent⟩
      · rw [hrefused] at hs
        obtain rfl := Option.some.inj hs
        exact .other h.client ⟨rfl, rfl, rfl, rfl⟩
      · rw [hsent] at hs
        obtain rfl := Option.some.inj hs
        exact .granted startData _ hgranted
  | packet p rtt =>
      obtain ⟨r, hr, rfl⟩ := Option.map_eq_some_iff.mp hs
      cases p with
      | stressStart =>
          obtain rfl := Option.some.inj hr
          exact .other _ (sameCounters_send h.client rfl rfl rfl)
      | stressData n => exact effect_of_echo hr
      | stressResult result =>
          obtain rfl := Option.some.inj hr
          exact .other _ ⟨rfl, rfl, rfl, rfl⟩
  | expire =>
      obtain ⟨client, hexpire, rfl⟩ := Option.map_eq_some_iff.mp hs
      obtain ⟨-, rfl⟩ := StressClient.expire_eq_some hexpire
      exact .other _ ⟨rfl, rfl, rfl, rfl⟩
  | timer =>
      obtain ⟨r, htimer, rfl⟩ := Option.map_eq_some_iff.mp hs
      obtain ⟨-, rfl⟩ := StressClient.onTimer_eq_some htimer
      split
      · exact .other _ (sameCounters_send h.client rfl rfl rfl)
      · exact .other _ ⟨rfl, rfl, rfl, rfl⟩

/-! ## 3. The counters over the integers -/

/-- The progress after `k` echoes, over the integers. -/
def percent (messageCount k : Nat) : Nat := 100 * k / messageCount

theorem percent_le_succ (messageCount k : Nat) :
    percent messageCount k ≤ percent messageCount (k + 1) :=
  Nat.div_le_div_right (by omega)

/-- A quotient survives that its dividend is cut to 32 bits exactly if there is nothing to cut. -/
theorem u32_div_eq_iff {x d : Nat} (hpos : 0 < d) (hle : d ≤ 2 ^ 32) :
    u32 x / d = x / d ↔ x < 2 ^ 32 := by
  constructor
  · intro h
    by_contra hge
    have hcut : u32 x + d ≤ x := by
      unfold u32
      omega
    have hquot : (u32 x + d) / d ≤ x / d := Nat.div_le_div_right hcut
    rw [Nat.add_div_right _ hpos, h] at hquot
    omega
  · intro hlt
    rw [u32, Nat.mod_eq_of_lt hlt]

/-- The `(k + 1)`-th echo of a test brings the progress to a further multiple of ten. -/
def LineDue (messageCount k : Nat) : Prop :=
  percent messageCount (k + 1) % 10 = 0 ∧ percent messageCount (k + 1) ≠ percent messageCount k

instance (messageCount k : Nat) : Decidable (LineDue messageCount k) :=
  inferInstanceAs (Decidable (_ ∧ _))

/-- **The counters at an echo are right**, which comes after `rtt` milliseconds: no divisor is 0,
    the progress is that over the integers, and no less than before, and the average of the line,
    if one is printed, is that of the round-trip times. -/
structure CountersRight (h : RttHistory) (rtt : Nat) : Prop where
  divides : (h.client.count rtt).reportProgress ≠ none
  progress : (h.client.count rtt).progress =
    percent h.client.stressTestConfig.messageCount (h.rtts.length + 1)
  monotone : h.client.progress ≤ (h.client.count rtt).progress
  average : ∀ line, (h.client.count rtt).progressLine? = some line →
    line.avgRtt = (h.rtts ++ [rtt]).sum / (h.rtts.length + 1)

/-- **Neither the product nor the sum reaches 2^32** at an echo after `rtt` milliseconds, the sum
    where a line is due. -/
structure InRange (h : RttHistory) (rtt : Nat) : Prop where
  product : 100 * (h.rtts.length + 1) < 2 ^ 32
  sum : LineDue h.client.stressTestConfig.messageCount h.rtts.length →
    (h.rtts ++ [rtt]).sum < 2 ^ 32

/-- **The counters are those over the integers**, the sum up to 2^32; and what was reported last is
    the progress where that is a multiple of ten. -/
structure Tracks (h : RttHistory) : Prop where
  received : h.client.stressTestReceivedCount = h.rtts.length
  total : h.client.totalRtt = u32 h.rtts.sum
  last_le : h.client.lastReportedProgress ≤
    percent h.client.stressTestConfig.messageCount h.rtts.length
  last_eq : percent h.client.stressTestConfig.messageCount h.rtts.length % 10 = 0 →
    h.client.lastReportedProgress = percent h.client.stressTestConfig.messageCount h.rtts.length

section Echo

variable {h : RttHistory} {rtt : Nat}

/-- The echo is counted. -/
theorem Tracks.received_count (ht : h.Tracks)
    (hlt : h.rtts.length < h.client.stressTestConfig.messageCount) (rtt : Nat) :
    (h.client.count rtt).stressTestReceivedCount = h.rtts.length + 1 := by
  have hfits := h.client.stressTestConfig.messageCount_lt
  show u32 (h.client.stressTestReceivedCount + 1) = _
  rw [ht.received]
  exact Nat.mod_eq_of_lt (by omega)

/-- Its time is added. -/
theorem Tracks.total_count (ht : h.Tracks) (rtt : Nat) :
    (h.client.count rtt).totalRtt = u32 (h.rtts ++ [rtt]).sum := by
  show u32 (h.client.totalRtt + rtt) = _
  rw [ht.total, List.sum_append, List.sum_singleton]
  exact Nat.mod_add_mod ..

/-- The progress is that of the product cut to 32 bits. -/
theorem Tracks.progress_count (ht : h.Tracks)
    (hlt : h.rtts.length < h.client.stressTestConfig.messageCount) (rtt : Nat) :
    (h.client.count rtt).progress =
      u32 (100 * (h.rtts.length + 1)) / h.client.stressTestConfig.messageCount := by
  unfold StressClient.progress
  rw [ht.received_count hlt rtt, Nat.mul_comm]
  rfl

/-- The progress over the integers. -/
theorem Tracks.progress_count_iff (ht : h.Tracks)
    (hlt : h.rtts.length < h.client.stressTestConfig.messageCount) (rtt : Nat) :
    (h.client.count rtt).progress =
        percent h.client.stressTestConfig.messageCount (h.rtts.length + 1) ↔
      100 * (h.rtts.length + 1) < 2 ^ 32 := by
  rw [ht.progress_count hlt rtt]
  exact u32_div_eq_iff (Nat.zero_lt_of_lt hlt)
    (Nat.le_of_lt h.client.stressTestConfig.messageCount_lt)

/-- **The 42949673rd echo**: the progress falls back to 0. -/
theorem Tracks.progress_wraps (ht : h.Tracks)
    (hlt : h.rtts.length < h.client.stressTestConfig.messageCount)
    (hbefore : h.rtts.length = 42949672) (rtt : Nat) : (h.client.count rtt).progress = 0 := by
  rw [ht.progress_count hlt rtt, hbefore]
  have hcut : u32 (100 * (42949672 + 1)) = 4 := rfl
  rw [hcut]
  exact Nat.div_eq_of_lt (by omega)

/-- **A line is printed where one is due.** -/
theorem Tracks.prints_iff (ht : h.Tracks)
    (hprogress : (h.client.count rtt).progress =
      percent h.client.stressTestConfig.messageCount (h.rtts.length + 1)) :
    ((h.client.count rtt).progress % 10 = 0 ∧
        (h.client.count rtt).progress ≠ (h.client.count rtt).lastReportedProgress) ↔
      LineDue h.client.stressTestConfig.messageCount h.rtts.length := by
  have hlast : (h.client.count rtt).lastReportedProgress = h.client.lastReportedProgress := rfl
  have hmono := percent_le_succ h.client.stressTestConfig.messageCount h.rtts.length
  have hle := ht.last_le
  rw [hprogress, hlast]
  refine and_congr_right fun hten => not_congr ⟨fun heq => ?_, fun heq => ?_⟩
  · omega
  · rw [heq] at hten ⊢
    exact (ht.last_eq hten).symm

/-- The line that is printed. -/
theorem Tracks.avgRtt (ht : h.Tracks)
    (hlt : h.rtts.length < h.client.stressTestConfig.messageCount) {line : ProgressLine}
    (hline : (h.client.count rtt).progressLine? = some line) :
    line.avgRtt = u32 (h.rtts ++ [rtt]).sum / (h.rtts.length + 1) := by
  obtain ⟨-, rfl⟩ := RttClient.progressLine?_eq_some hline
  dsimp only
  rw [ht.received_count hlt rtt, ht.total_count rtt]

/-- **One echo**: its counters are right exactly if they stay below 2^32. -/
theorem Tracks.countersRight_iff (ht : h.Tracks)
    (hlt : h.rtts.length < h.client.stressTestConfig.messageCount) :
    h.CountersRight rtt ↔ h.InRange rtt := by
  have hfits := h.client.stressTestConfig.messageCount_lt
  have hquot : u32 (h.rtts ++ [rtt]).sum / (h.rtts.length + 1) =
      (h.rtts ++ [rtt]).sum / (h.rtts.length + 1) ↔ (h.rtts ++ [rtt]).sum < 2 ^ 32 :=
    u32_div_eq_iff (Nat.succ_pos _) (by omega)
  constructor
  · intro hright
    refine ⟨(ht.progress_count_iff hlt rtt).mp hright.progress, fun hdue => hquot.mp ?_⟩
    obtain ⟨line, hline⟩ : ∃ line, (h.client.count rtt).progressLine? = some line :=
      ⟨_, if_pos ((ht.prints_iff hright.progress).mpr hdue)⟩
    rw [← ht.avgRtt hlt hline]
    exact hright.average line hline
  · intro hrange
    have hprogress := (ht.progress_count_iff hlt rtt).mpr hrange.product
    refine ⟨?_, hprogress, ?_, fun line hline => ?_⟩
    · exact StressClient.reportProgress_ne_none (Nat.zero_lt_of_lt hlt)
        (ht.received_count hlt rtt ▸ Nat.succ_pos _)
    · have hproduct := hrange.product
      have hbefore : h.client.progress =
          percent h.client.stressTestConfig.messageCount h.rtts.length := by
        unfold StressClient.progress percent
        rw [ht.received, u32, Nat.mod_eq_of_lt (by omega), Nat.mul_comm]
      rw [hbefore, hprogress]
      exact percent_le_succ _ _
    · rw [ht.avgRtt hlt hline]
      have hprints := (RttClient.progressLine?_eq_some hline).1
      exact hquot.mpr (hrange.sum ((ht.prints_iff hprogress).mp hprints))

end Echo

/-! ## 4. The runs -/

/-- `P` is met at the echoes of a test, up to as many as it has messages. -/
def AtEcho (P : RttHistory → Nat → Prop) (h : RttHistory) : ClientEvent → Prop
  | .packet (.stressData _) rtt =>
      h.client.stressTestActive = true →
        h.rtts.length < h.client.stressTestConfig.messageCount → P h (u32 rtt)
  | .packet .stressStart _ | .packet (.stressResult _) _ => True
  | .request _ | .expire | .timer => True

instance (h : RttHistory) (rtt : Nat) : Decidable (h.InRange rtt) :=
  decidable_of_iff (100 * (h.rtts.length + 1) < 2 ^ 32 ∧
      (LineDue h.client.stressTestConfig.messageCount h.rtts.length →
        (h.rtts ++ [rtt]).sum < 2 ^ 32))
    ⟨fun hr => ⟨hr.1, hr.2⟩, fun hr => ⟨hr.product, hr.sum⟩⟩

instance (h : RttHistory) : ∀ e, Decidable (AtEcho InRange h e)
  | .packet (.stressData _) _ => inferInstanceAs (Decidable (_ → _ → _))
  | .packet .stressStart _ => .isTrue trivial
  | .packet (.stressResult _) _ => .isTrue trivial
  | .request _ => .isTrue trivial
  | .expire => .isTrue trivial
  | .timer => .isTrue trivial

/-- The conditions agree at an event where they agree at its echo. -/
theorem atEcho_congr {P Q : RttHistory → Nat → Prop} {h : RttHistory}
    (hPQ : h.rtts.length < h.client.stressTestConfig.messageCount → ∀ rtt, P h rtt ↔ Q h rtt)
    (e : ClientEvent) : AtEcho P h e ↔ AtEcho Q h e := by
  cases e with
  | packet p rtt =>
      cases p with
      | stressData n => exact forall₂_congr fun _ hlt => hPQ hlt (u32 rtt)
      | stressStart => exact Iff.rfl
      | stressResult result => exact Iff.rfl
  | request startData => exact Iff.rfl
  | expire => exact Iff.rfl
  | timer => exact Iff.rfl

/-- The counters, as long as there are no more echoes than messages. -/
def WithinTest (h : RttHistory) : Prop :=
  h.rtts.length ≤ h.client.stressTestConfig.messageCount → h.Tracks

section Run

variable {h h' : RttHistory}

/-- After a request. -/
theorem tracks_of_granted {startData : StressTestStartData} {client : RttClient}
    (hg : Granted startData client) : Tracks ⟨client, []⟩ where
  received := hg.received
  total := hg.total
  last_le := hg.last ▸ Nat.zero_le _
  last_eq _ := by
    show client.lastReportedProgress = percent _ 0
    rw [hg.last, percent, Nat.mul_zero, Nat.zero_div]

/-- After an echo. -/
theorem Tracks.counted (ht : h.Tracks)
    (hlt : h.rtts.length < h.client.stressTestConfig.messageCount) {rtt : Nat}
    (hrange : h.InRange rtt) {client : StressClient}
    (hreport : (h.client.count rtt).reportProgress = some client) :
    Tracks ⟨{ h.client.count rtt with toStressClient := client }, h.rtts ++ [rtt]⟩ := by
  have hlength : (h.rtts ++ [rtt]).length = h.rtts.length + 1 := List.length_append
  have hprogress := (ht.progress_count_iff hlt rtt).mpr hrange.product
  obtain rfl := StressClient.reportProgress_eq_some hreport
  refine ⟨?_, ht.total_count rtt, ?_, ?_⟩
  · rw [hlength]
    exact ht.received_count hlt rtt
  · show (if (h.client.count rtt).progress % 10 = 0 then (h.client.count rtt).progress
      else h.client.lastReportedProgress) ≤ percent h.client.stressTestConfig.messageCount _
    rw [hlength]
    split
    · exact Nat.le_of_eq hprogress
    · exact ht.last_le.trans (percent_le_succ _ _)
  · show percent h.client.stressTestConfig.messageCount _ % 10 = 0 →
      (if (h.client.count rtt).progress % 10 = 0 then (h.client.count rtt).progress
        else h.client.lastReportedProgress) = percent h.client.stressTestConfig.messageCount _
    rw [hlength, ← hprogress]
    intro hten
    exact if_pos hten

/-- **One event.** -/
theorem WithinTest.step (hI : h.WithinTest) {e : ClientEvent} (hok : AtEcho InRange h e)
    (hs : h.next e = some h') : h'.WithinTest := by
  cases effect_of_next hs with
  | granted startData client hgranted => exact fun _ => tracks_of_granted hgranted
  | counted n rtt client he hactive hreport =>
      intro hle
      have hconfig : client.stressTestConfig = h.client.stressTestConfig := by
        rw [StressClient.reportProgress_eq_some hreport]
        rfl
      have hlength : (h.rtts ++ [u32 rtt]).length = h.rtts.length + 1 := List.length_append
      have hlt : h.rtts.length < h.client.stressTestConfig.messageCount := by
        rw [← hconfig]
        exact hlength.symm.trans_le hle
      subst he
      exact (hI (Nat.le_of_lt hlt)).counted hlt (hok hactive hlt) hreport
  | other client hsame =>
      intro hle
      dsimp only at hle
      rw [hsame.config] at hle
      have ht := hI hle
      exact ⟨hsame.received.trans ht.received, hsame.total.trans ht.total,
        hsame.last ▸ hsame.config ▸ ht.last_le, hsame.last ▸ hsame.config ▸ ht.last_eq⟩

end Run

/-- **The counters of a stress test**: from a request that is granted on, along any run of the
    client, the progress and the averages of each test are right, up to as many echoes as it has
    messages, exactly if the product of the progress, and at each line that is due the sum of the
    round-trip times, stay below 2^32. -/
theorem client_counters_iff {c : RttClient} (hidle : c.stressTestActive = false)
    {startData : StressTestStartData} (hsize : startData.messageSize ≤ 4000)
    (events : List ClientEvent) :
    Along next (AtEcho CountersRight) (requested c startData) events ↔
      Along next (AtEcho InRange) (requested c startData) events := by
  have hgranted := granted_of_idle hidle hsize
  refine along_iff (I := WithinTest) (fun h e hI => ?_) (fun h h' e hI hok hs => hI.step hok hs)
    events fun _ => tracks_of_granted hgranted
  exact atEcho_congr (fun hlt rtt => (hI (Nat.le_of_lt hlt)).countersRight_iff hlt) e

/-- A client before its first test -/
def idle : RttClient := ⟨⟨false, .ofNat 0 0 0, 0, 0, 0, false, 0⟩, 0, 0, 0⟩

/-- Two messages, and the first line between them. -/
theorem client_counters_iff_two :
    Along next (AtEcho CountersRight) (requested idle (.ofNat 2 16 0))
      [.packet .stressStart 0, .packet (.stressData 1) 30, .expire, .timer,
        .packet (.stressData 2) 50] := by
  have hrun : (exec next (AtEcho InRange) (requested idle (.ofNat 2 16 0))
      [.packet .stressStart 0, .packet (.stressData 1) 30, .expire, .timer,
        .packet (.stressData 2) 50]).isSome := by decide
  obtain ⟨h, hexec⟩ := Option.isSome_iff_exists.mp hrun
  exact (client_counters_iff rfl (by decide) _).mpr (Along.of_exec _ hexec)

/-- **Two echoes that came late**: the sum of their times is 2^32, and the line of the second shows
    an average of 0 milliseconds. -/
theorem average_wraps :
    ∃ h, exec next always (requested idle (.ofNat 10 16 0))
        [.packet .stressStart 0, .packet (.stressData 1) (2 ^ 31)] = some h ∧
      (h.client.count (2 ^ 31)).progressLine? = some ⟨20, 2, 10, 0⟩ ∧
      (h.rtts ++ [2 ^ 31]).sum / 2 = 2 ^ 31 ∧
      ¬ Along next (AtEcho CountersRight) (requested idle (.ofNat 10 16 0))
        [.packet .stressStart 0, .packet (.stressData 1) (2 ^ 31),
          .packet (.stressData 2) (2 ^ 31)] := by
  refine ⟨_, rfl, by decide, by decide, fun hall => ?_⟩
  have hright := ((hall.2 _ rfl).2 _ rfl).1 rfl (by decide)
  exact absurd (hright.average ⟨20, 2, 10, 0⟩ (by decide)) (by decide)

end RttHistory

end ServerCore
