/-
  File:      ServerCore/StressStatistics.lean
  Subject:   The statistics a GameSession takes of a stress test (server.cpp).

  `StressMeter` is the server of the stress test with all the members it counts in; forgetting
  these it is the one of StressTest.lean (`onRecvPacket_toStressServer`), also over the bytes
  that arrive (`onRecvPacket_callOf`). The floats of the result are taken as the exact quotients.

  * `loss_count_iff`: the result counts the messages and the losses of the test right exactly if
    no message bore the number 0. The numbers of a test begin with 1, the greatest of them less
    the number of messages is taken for the losses, and 0 is counted as a message.
  * `latency_coherent_iff`: the average lies between the least and the greatest latency exactly if
    the repeats do not weigh more than the first messages leave room for. A repeat adds to the
    sum, and not to the count the sum is divided by.
-/
import ServerCore.GameSession
import ServerCore.Lib.Tally
import Mathlib.Order.Interval.Finset.Nat

namespace ServerCore

open LittleEndian Tally

/-! ## 1. The statistics -/

/-- `StressTestData`, without the filling -/
structure StressTestData where
  sequenceNumber : Nat
  timestamp : Nat
  sequenceNumber_lt : sequenceNumber < 2 ^ 32
  timestamp_lt : timestamp < 2 ^ 32

/-- A `PKT_C_STRESS_DATA` as it is handled: with `header->size`, and `steady_clock::now()` in
    milliseconds. -/
structure StressArrival where
  stressData : StressTestData
  size : Nat
  now : Nat

/-- `currentTimeMs - stressData->timestamp`, in `uint32_t` -/
def StressArrival.latency (a : StressArrival) : Nat :=
  let currentTimeMs := u32 a.now
  u32 (currentTimeMs + 2 ^ 32 - a.stressData.timestamp)

theorem StressArrival.latency_lt (a : StressArrival) : a.latency < 2 ^ 32 := u32_lt _

/-- A call of `OnRecvPacket` with a packet of the stress test; with the last one the milliseconds
    since `_stressTestStartTime`. -/
inductive StressCall where
  | stressStart (startData : StressTestStartData)
  | stressData (arrival : StressArrival)
  | stressEnd (testDuration : Nat)

/-- `StressTestResult` in full -/
structure StressReport extends StressTestResult where
  avgLatencyMs : ℚ
  maxLatencyMs : ℚ
  minLatencyMs : ℚ
  dataRateMBps : ℚ
  deriving DecidableEq

/-- What the server answers. -/
inductive StressReply where
  | stressStart
  | stressData (sequenceNumber : Nat)
  | stressResult (result : StressReport)
  deriving DecidableEq

/-- The stress test of a `GameSession` with its statistics -/
structure StressMeter extends StressServer where
  receivedBytes : Nat
  totalLatency : Nat
  maxLatency : Nat
  minLatency : Nat
  deriving DecidableEq

namespace StressMeter

/-- `_totalLatency / receivedMessages`, where there is one -/
def averageLatency (g : StressMeter) : ℚ :=
  let receivedMessages := u32 g.receivedMessages.card
  if receivedMessages > 0 then (g.totalLatency : ℚ) / receivedMessages else 0

/-- `SendStressTestResult()` -/
def stressReport (g : StressMeter) (testDuration : Nat) : StressReport where
  toStressTestResult := g.stressTestResult
  avgLatencyMs := g.averageLatency
  maxLatencyMs := g.maxLatency
  minLatencyMs := if g.minLatency ≠ 2 ^ 32 - 1 then g.minLatency else 0
  dataRateMBps :=
    if testDuration > 0 then ((g.receivedBytes : ℚ) / 1024 / 1024) / ((testDuration : ℚ) / 1000)
    else 0

/-- `OnRecvPacket` -/
def onRecvPacket (g : StressMeter) : StressCall → StressMeter × List StressReply
  | .stressStart startData =>
      ({ stressTestActive := true
         stressTestConfig := startData
         receivedMessages := ∅
         lastReceivedSeq := 0
         receivedBytes := 0
         totalLatency := 0
         maxLatency := 0
         minLatency := 2 ^ 32 - 1 }, [.stressStart])
  | .stressData arrival =>
      if !g.stressTestActive then (g, [])
      else
        let sequenceNumber := arrival.stressData.sequenceNumber
        let latency := arrival.latency
        ({ g with
            receivedMessages := insert sequenceNumber g.receivedMessages
            lastReceivedSeq := max g.lastReceivedSeq sequenceNumber
            receivedBytes :=
              u64 (g.receivedBytes + u64 (arrival.size + (2 ^ 64 - sizeofPacketHeader)))
            totalLatency := u64 (g.totalLatency + latency)
            maxLatency := max g.maxLatency latency
            minLatency := min g.minLatency latency },
          [.stressData sequenceNumber])
  | .stressEnd testDuration =>
      if !g.stressTestActive then (g, [])
      else ({ g with stressTestActive := false }, [.stressResult (g.stressReport testDuration)])

/-- The session after the calls. -/
def handle (g : StressMeter) (calls : List StressCall) : StressMeter :=
  calls.foldl (fun g call => (g.onRecvPacket call).1) g

/-! ## 2. The same server -/

/-- The packet of a call, as far as the handlers decide on it -/
def packetOf : StressCall → ClientPacket
  | .stressStart startData => .stressStart startData
  | .stressData arrival => .stressData arrival.stressData.sequenceNumber
  | .stressEnd _ => .stressEnd

/-- ... and of a reply. -/
def replyOf : StressReply → ServerPacket
  | .stressStart => .stressStart
  | .stressData sequenceNumber => .stressData sequenceNumber
  | .stressResult result => .stressResult result.toStressTestResult

/-- **Without the statistics it is the server of the stress test.** -/
theorem onRecvPacket_toStressServer (g : StressMeter) (call : StressCall) :
    ((g.onRecvPacket call).1.toStressServer, (g.onRecvPacket call).2.map replyOf) =
      g.toStressServer.onRecvPacket (packetOf call) := by
  cases call with
  | stressStart startData => rfl
  | stressData arrival =>
      simp only [onRecvPacket, packetOf, StressServer.onRecvPacket]
      split
      · rfl
      · rfl
  | stressEnd testDuration =>
      simp only [onRecvPacket, packetOf, StressServer.onRecvPacket]
      split
      · rfl
      · rfl

theorem sequenceNumber_lt (buffer : List UInt8) : readLe buffer 4 4 < 2 ^ 32 :=
  readLe_uint32_lt buffer 4

theorem timestamp_lt (buffer : List UInt8) : readLe buffer 8 4 < 2 ^ 32 :=
  readLe_uint32_lt buffer 8

/-- `*stressData` -/
def stressData (buffer : List UInt8) : StressTestData where
  sequenceNumber := readLe buffer 4 4
  timestamp := readLe buffer 8 4
  sequenceNumber_lt := sequenceNumber_lt buffer
  timestamp_lt := timestamp_lt buffer

/-- The call of the stress test that the bytes at `buffer` are, if any. -/
def callOf (buffer : List UInt8) (now testDuration : Nat) : Option StressCall :=
  if packetId buffer = pktCStressStart then some (.stressStart (GameSession.startData buffer))
  else if packetId buffer = pktCStressData then
    some (.stressData ⟨stressData buffer, PacketHeader.size buffer, now⟩)
  else if packetId buffer = pktCStressEnd then some (.stressEnd testDuration)
  else none

/-- The stress test of a session after any packet. -/
theorem onRecvPacket_callOf {g : GameSession} {m : StressMeter}
    (hm : m.toStressServer = g.stressTest) (buffer : List UInt8) (env : GameSurroundings)
    (now testDuration : Nat) :
    (g.onRecvPacket buffer env).1.stressTest =
      ((callOf buffer now testDuration).elim m fun call => (m.onRecvPacket call).1).toStressServer
        := by
  have hcall (call : StressCall) : (m.onRecvPacket call).1.toStressServer =
      (g.stressTest.onRecvPacket (packetOf call)).1 := by
    rw [← hm, ← onRecvPacket_toStressServer]
  unfold GameSession.onRecvPacket GameSession.onStress callOf
  dsimp only
  by_cases hchat : packetId buffer = pktCChat
  · have hne : pktCChat ≠ pktCStressStart ∧ pktCChat ≠ pktCStressData ∧
        pktCChat ≠ pktCStressEnd := by decide
    rw [if_pos hchat, hchat, if_neg hne.1, if_neg hne.2.1, if_neg hne.2.2]
    exact hm.symm
  rw [if_neg hchat]
  by_cases hstart : packetId buffer = pktCStressStart
  · rw [if_pos hstart, if_pos hstart, Option.elim, hcall]
    rfl
  rw [if_neg hstart, if_neg hstart]
  by_cases hdata : packetId buffer = pktCStressData
  · rw [if_pos hdata, if_pos hdata, Option.elim, hcall]
    unfold packetOf StressServer.onRecvPacket
    dsimp only
    split
    · rfl
    · rfl
  rw [if_neg hdata, if_neg hdata]
  by_cases hend : packetId buffer = pktCStressEnd
  · rw [if_pos hend, if_pos hend, Option.elim, hcall]
    unfold packetOf StressServer.onRecvPacket
    dsimp only
    split
    · rfl
    · rfl
  rw [if_neg hend, if_neg hend]
  split
  · exact hm.symm
  · exact hm.symm

/-! ## 3. The count of the losses -/

/-- The numbers of the messages of a test, if one is on. -/
def track : Option (List Nat) → StressCall → Option (List Nat)
  | _, .stressStart _ => some []
  | numbers, .stressData arrival => numbers.map (· ++ [arrival.stressData.sequenceNumber])
  | _, .stressEnd _ => none

/-- **The numbers received since the last start**; `none` where the test has been ended, or none
    was begun. -/
def sinceStart (calls : List StressCall) : Option (List Nat) := calls.foldl track none

/-- The session has counted the messages with these numbers. -/
structure HasCounted (g : StressMeter) (numbers : List Nat) : Prop where
  active : g.stressTestActive = true
  received : g.receivedMessages = numbers.toFinset
  last : g.lastReceivedSeq = greatest numbers
  uint32 : ∀ n ∈ numbers, n < 2 ^ 32

/-- The session and the numbers of its test. -/
def Follows (g : StressMeter) : Option (List Nat) → Prop
  | none => g.stressTestActive = false
  | some numbers => g.HasCounted numbers

/-- One call. -/
theorem Follows.step {g : StressMeter} {numbers : Option (List Nat)} (h : g.Follows numbers)
    (call : StressCall) : (g.onRecvPacket call).1.Follows (track numbers call) := by
  cases call with
  | stressStart startData => exact ⟨rfl, rfl, rfl, fun n hn => by cases hn⟩
  | stressData arrival =>
      cases numbers with
      | none =>
          have hactive : g.stressTestActive = false := h
          unfold onRecvPacket
          dsimp only
          rw [if_pos (by rw [hactive]; rfl)]
          exact h
      | some numbers =>
          have hnot : ¬ (!g.stressTestActive) = true := by
            rw [h.active]
            decide
          unfold onRecvPacket
          dsimp only
          rw [if_neg hnot]
          refine ⟨h.active, ?_, ?_, fun n hn => ?_⟩
          · dsimp only
            rw [h.received, List.toFinset_append, List.toFinset_cons, List.toFinset_nil,
              Finset.union_insert, Finset.union_empty]
          · dsimp only
            rw [h.last, greatest, greatest, List.foldl_append]
            rfl
          · rcases List.mem_append.mp hn with hn | hn
            · exact h.uint32 n hn
            · rw [List.mem_singleton.mp hn]
              exact arrival.stressData.sequenceNumber_lt
  | stressEnd testDuration =>
      show (g.onRecvPacket (.stressEnd testDuration)).1.stressTestActive = false
      unfold onRecvPacket
      dsimp only
      split
      · rename_i hnot
        exact Bool.not_eq_true' _ |>.mp hnot
      · rfl

/-- **A run of calls**, from a session that is not in a test. -/
theorem follows_handle : ∀ (calls : List StressCall) {g : StressMeter}
    {numbers : Option (List Nat)}, g.Follows numbers →
      (g.handle calls).Follows (calls.foldl track numbers)
  | [], _, _, h => h
  | call :: calls, _, _, h => follows_handle calls (h.step call)

/-- A result is sent for a test that is on. -/
theorem stressResult_sent {g : StressMeter} {testDuration : Nat} {result : StressReport}
    (h : .stressResult result ∈ (g.onRecvPacket (.stressEnd testDuration)).2) :
    g.stressTestActive = true ∧ result = g.stressReport testDuration := by
  unfold onRecvPacket at h
  dsimp only at h
  split at h
  · cases h
  · rename_i hactive
    refine ⟨?_, StressReply.stressResult.inj (List.mem_singleton.mp h)⟩
    rwa [Bool.not_eq_true', Bool.not_eq_false] at hactive

/-- **The counts are right**: of a test whose messages had these numbers, up to `last`. -/
structure LossCounted (numbers : List Nat) (last : Nat) (result : StressTestResult) : Prop where
  received : result.receivedMessages = numbers.toFinset.card
  lost : result.lostMessages = (Finset.Icc 1 last \ numbers.toFinset).card
  /-- the difference that is sent does not wrap around -/
  noWrap : result.receivedMessages ≤ last

/-- How many of `1 .. last` are missing, where none of the numbers is above `last`. -/
theorem card_missing {numbers : List Nat} {last : Nat} (h : ∀ n ∈ numbers, n ≤ last) :
    (Finset.Icc 1 last \ numbers.toFinset).card + numbers.toFinset.card =
      last + if 0 ∈ numbers then 1 else 0 := by
  have hcard := Finset.card_sdiff_add_card (Finset.Icc 1 last) numbers.toFinset
  have hsub : numbers.toFinset ⊆ Finset.Icc 0 last := fun n hn =>
    Finset.mem_Icc.mpr ⟨Nat.zero_le n, h n (List.mem_toFinset.mp hn)⟩
  rw [hcard]
  split
  · rename_i hzero
    have hall : Finset.Icc 1 last ∪ numbers.toFinset = Finset.Icc 0 last := by
      ext n
      rw [Finset.mem_union, Finset.mem_Icc, Finset.mem_Icc, List.mem_toFinset]
      constructor
      · rintro (hn | hn)
        · exact ⟨Nat.zero_le n, hn.2⟩
        · exact ⟨Nat.zero_le n, h n hn⟩
      · rintro ⟨-, hn⟩
        rcases Nat.eq_zero_or_pos n with rfl | hpos
        · exact .inr hzero
        · exact .inl ⟨hpos, hn⟩
    rw [hall, Nat.card_Icc, Nat.sub_zero]
  · rename_i hzero
    have hall : Finset.Icc 1 last ∪ numbers.toFinset = Finset.Icc 1 last := by
      refine Finset.union_eq_left.mpr fun n hn => ?_
      have hmem := List.mem_toFinset.mp hn
      exact Finset.mem_Icc.mpr ⟨Nat.pos_of_ne_zero fun hn0 => hzero (hn0 ▸ hmem), h n hmem⟩
    rw [hall, Nat.card_Icc]
    rfl

/-- The counts of a result are right exactly if no message bore the number 0. -/
theorem HasCounted.lossCounted_iff {g : StressMeter} {numbers : List Nat}
    (h : g.HasCounted numbers) :
    LossCounted numbers g.lastReceivedSeq g.stressTestResult ↔ 0 ∉ numbers := by
  have hle : ∀ n ∈ numbers, n ≤ g.lastReceivedSeq := fun n hn => h.last ▸ le_greatest hn
  have hlast : g.lastReceivedSeq ≤ 2 ^ 32 - 1 :=
    h.last ▸ greatest_le_iff.mpr fun n hn => Nat.le_pred_of_lt (h.uint32 n hn)
  have hmissing := card_missing hle
  have hreceived : g.stressTestResult.receivedMessages = u32 numbers.toFinset.card := by
    rw [← h.received]
    rfl
  have hlost : g.stressTestResult.lostMessages =
      u32 (g.lastReceivedSeq + 2 ^ 32 - u32 numbers.toFinset.card) := by
    rw [← h.received]
    rfl
  unfold u32 at hreceived hlost
  constructor
  · intro hcounted hzero
    have hr := hcounted.received
    have hl := hcounted.lost
    have hw := hcounted.noWrap
    rw [if_pos hzero] at hmissing
    omega
  · intro hzero
    rw [if_neg hzero] at hmissing
    exact ⟨by omega, by omega, by omega⟩

/-- **The loss count**: after any sequence of calls, whatever the numbers of the messages, the
    result that an end is answered with counts messages and losses right exactly if 0 is not among
    the numbers received since the last start. -/
theorem loss_count_iff {g : StressMeter} (hidle : g.stressTestActive = false)
    (calls : List StressCall) (testDuration : Nat) {result : StressReport}
    (hsent : .stressResult result ∈
      ((g.handle calls).onRecvPacket (.stressEnd testDuration)).2) :
    ∃ numbers, sinceStart calls = some numbers ∧
      (LossCounted numbers (g.handle calls).lastReceivedSeq result.toStressTestResult ↔
        0 ∉ numbers) := by
  obtain ⟨hactive, rfl⟩ := stressResult_sent hsent
  have hfollows : (g.handle calls).Follows (sinceStart calls) := follows_handle calls hidle
  generalize sinceStart calls = numbers at hfollows
  cases numbers with
  | none => exact absurd (hactive.symm.trans hfollows) Bool.noConfusion
  | some numbers => exact ⟨numbers, rfl, hfollows.lossCounted_iff⟩

/-- A session before its first test -/
def idle : StressMeter := ⟨⟨false, GameSession.startData [], ∅, 0⟩, 0, 0, 0, 0⟩

/-- A test of three messages, of 16 bytes each. -/
def threeMessages : StressTestStartData := .ofNat 3 16 0

/-- The message `n` that was sent at 100, `latency` milliseconds after it was. -/
def message (n latency : Nat) : StressArrival where
  stressData :=
    { sequenceNumber := u32 n
      timestamp := u32 100
      sequenceNumber_lt := u32_lt n
      timestamp_lt := u32_lt 100 }
  size := 28
  now := 100 + latency

/-- Of three messages the second is lost. -/
theorem loss_count_iff_gap :
    ∃ result, .stressResult result ∈ ((idle.handle [.stressStart threeMessages,
        .stressData (message 3 5), .stressData (message 1 9)]).onRecvPacket (.stressEnd 7)).2 ∧
      result.lostMessages = 1 ∧ LossCounted [3, 1] 3 result.toStressTestResult := by
  refine ⟨_, List.mem_singleton_self _, rfl, ?_⟩
  obtain ⟨numbers, hnumbers, h⟩ := loss_count_iff (g := idle) rfl [.stressStart threeMessages,
    .stressData (message 3 5), .stressData (message 1 9)] 7 (List.mem_singleton_self _)
  obtain rfl : [3, 1] = numbers := Option.some.inj hnumbers
  exact h.mpr (by decide)

/-- **A message with the number 0**: none is lost, and the result says 4294967295. -/
theorem loss_count_wraps :
    ∃ result, .stressResult result ∈ ((idle.handle [.stressStart threeMessages,
        .stressData (message 0 5)]).onRecvPacket (.stressEnd 7)).2 ∧
      sinceStart [.stressStart threeMessages, .stressData (message 0 5)] = some [0] ∧
      result.lostMessages = 4294967295 ∧
      ¬ LossCounted [0] (idle.handle [.stressStart threeMessages,
        .stressData (message 0 5)]).lastReceivedSeq result.toStressTestResult := by
  refine ⟨_, List.mem_singleton_self _, rfl, rfl, fun h => ?_⟩
  exact absurd h.noWrap (by decide)

/-! ## 4. The latencies -/

/-- The number of a message and its latency -/
def sample (a : StressArrival) : Nat × Nat := (a.stressData.sequenceNumber, a.latency)

/-- The session has measured these messages. -/
structure HasMeasured (g : StressMeter) (samples : List (Nat × Nat)) : Prop where
  active : g.stressTestActive = true
  received : g.receivedMessages = keys samples
  total : g.totalLatency = u64 (samples.map Prod.snd).sum
  max : g.maxLatency = greatest (samples.map Prod.snd)
  min : g.minLatency = least (2 ^ 32 - 1) (samples.map Prod.snd)

/-- One message. -/
theorem HasMeasured.step {g : StressMeter} {samples : List (Nat × Nat)} (h : g.HasMeasured samples)
    (a : StressArrival) :
    (g.onRecvPacket (.stressData a)).1.HasMeasured (samples ++ [sample a]) := by
  have hnot : ¬ (!g.stressTestActive) = true := by
    rw [h.active]
    decide
  have hvalues : (samples ++ [sample a]).map Prod.snd = samples.map Prod.snd ++ [a.latency] :=
    List.map_append
  unfold onRecvPacket
  dsimp only
  rw [if_neg hnot]
  refine ⟨h.active, ?_, ?_, ?_, ?_⟩
  · dsimp only
    rw [h.received, keys, keys, List.map_append, List.toFinset_append, Finset.insert_eq,
      Finset.union_comm]
    rfl
  · dsimp only
    rw [h.total, hvalues, List.sum_append, List.sum_singleton]
    unfold u64
    rw [Nat.mod_add_mod]
  · dsimp only
    rw [h.max, hvalues, greatest, greatest, List.foldl_append]
    rfl
  · dsimp only
    rw [h.min, hvalues, least, least, List.foldl_append]
    rfl

/-- **A run of messages.** -/
theorem HasMeasured.handle : ∀ (arrivals : List StressArrival) {g : StressMeter}
    {samples : List (Nat × Nat)}, g.HasMeasured samples →
      (g.handle (arrivals.map .stressData)).HasMeasured (samples ++ arrivals.map sample)
  | [], _, _, h => by
      rw [List.map_nil, List.map_nil, List.append_nil]
      exact h
  | a :: arrivals, _, _, h => by
      rw [List.map_cons, List.map_cons, List.append_cons]
      exact HasMeasured.handle arrivals (h.step a)

/-- A test and its messages so far. -/
theorem hasMeasured_handle (g : StressMeter) (startData : StressTestStartData)
    (arrivals : List StressArrival) :
    (g.handle (.stressStart startData :: arrivals.map .stressData)).HasMeasured
      (arrivals.map sample) := by
  have hnone : (g.onRecvPacket (.stressStart startData)).1.HasMeasured [] :=
    ⟨rfl, rfl, rfl, rfl, rfl⟩
  exact hnone.handle arrivals

/-- **The statistics are coherent.** -/
structure LatencyCoherent (g : StressMeter) : Prop where
  low : (g.minLatency : ℚ) ≤ g.averageLatency
  high : g.averageLatency ≤ g.maxLatency

/-- What `_totalLatency` has lost, in `uint64_t`. -/
def lostLatency (samples : List (Nat × Nat)) : Nat :=
  (samples.map Prod.snd).sum / 2 ^ 64 * 2 ^ 64

/-- **The repeats do not weigh too much**: their latencies add up to no more than the first
    messages leave below the greatest. What the sum has lost counts for them, and must not be more
    than they are above the least. Where all numbers there are have come the count is 0, and so is
    the average. -/
def RepeatsFit (samples : List (Nat × Nat)) : Prop :=
  if (keys samples).card = 2 ^ 32 then 0 ∈ samples.map Prod.snd
  else
    (repeats ∅ samples).sum ≤
        slack (greatest (samples.map Prod.snd)) (firsts ∅ samples) + lostLatency samples ∧
      lostLatency samples ≤
        surplus (least (2 ^ 32 - 1) (samples.map Prod.snd)) (firsts ∅ samples) +
          (repeats ∅ samples).sum

/-- There are not more numbers than 32 bits can hold. -/
theorem card_keys_le (arrivals : List StressArrival) :
    (keys (arrivals.map sample)).card ≤ 2 ^ 32 := by
  have hsub : keys (arrivals.map sample) ⊆ Finset.range (2 ^ 32) := by
    intro n hn
    obtain ⟨s, hs, rfl⟩ := List.mem_map.mp (List.mem_toFinset.mp hn)
    obtain ⟨a, -, rfl⟩ := List.mem_map.mp hs
    exact Finset.mem_range.mpr a.stressData.sequenceNumber_lt
  exact (Finset.card_le_card hsub).trans_eq (Finset.card_range _)

/-- Where the sum has lost nothing only the repeats count. -/
theorem repeatsFit_iff_of_few {arrivals : List StressArrival} (hfew : arrivals.length < 2 ^ 32) :
    RepeatsFit (arrivals.map sample) ↔
      (repeats ∅ (arrivals.map sample)).sum ≤
        slack (greatest ((arrivals.map sample).map Prod.snd)) (firsts ∅ (arrivals.map sample)) := by
  have hcard : (keys (arrivals.map sample)).card < 2 ^ 32 := by
    refine (List.toFinset_card_le _).trans_lt ?_
    rwa [List.length_map, List.length_map]
  have hsum : ((arrivals.map sample).map Prod.snd).sum ≤ arrivals.length * (2 ^ 32 - 1) := by
    have hall : ∀ v ∈ (arrivals.map sample).map Prod.snd, v ≤ 2 ^ 32 - 1 := by
      intro v hv
      obtain ⟨s, hs, rfl⟩ := List.mem_map.mp hv
      obtain ⟨a, -, rfl⟩ := List.mem_map.mp hs
      exact Nat.le_pred_of_lt a.latency_lt
    have hslack := sum_add_slack hall
    rw [List.length_map, List.length_map] at hslack
    exact hslack ▸ Nat.le_add_right _ _
  have hlost : lostLatency (arrivals.map sample) = 0 := by
    unfold lostLatency
    omega
  unfold RepeatsFit
  rw [if_neg (Nat.ne_of_lt hcard), hlost]
  exact and_iff_left (Nat.zero_le _)

/-- The average, where not all numbers have come. -/
theorem HasMeasured.averageLatency_eq {g : StressMeter} {samples : List (Nat × Nat)}
    (h : g.HasMeasured samples) (hpos : 0 < (keys samples).card)
    (hlt : (keys samples).card < 2 ^ 32) :
    g.averageLatency = (g.totalLatency : ℚ) / (keys samples).card := by
  unfold averageLatency
  dsimp only
  rw [h.received, u32, Nat.mod_eq_of_lt hlt, if_pos hpos]

/-- Where all have come it is 0. -/
theorem HasMeasured.averageLatency_of_all {g : StressMeter} {samples : List (Nat × Nat)}
    (h : g.HasMeasured samples) (hall : (keys samples).card = 2 ^ 32) : g.averageLatency = 0 := by
  unfold averageLatency
  dsimp only
  rw [h.received, hall]
  exact if_neg (by decide)

/-- The statistics of what was measured. -/
theorem HasMeasured.coherent_iff {g : StressMeter} {samples : List (Nat × Nat)}
    (h : g.HasMeasured samples) (hne : samples ≠ []) (hle : (keys samples).card ≤ 2 ^ 32) :
    LatencyCoherent g ↔ RepeatsFit samples := by
  have hboth : LatencyCoherent g ↔
      (g.minLatency : ℚ) ≤ g.averageLatency ∧ g.averageLatency ≤ g.maxLatency :=
    ⟨fun hc => ⟨hc.low, hc.high⟩, fun hc => ⟨hc.1, hc.2⟩⟩
  rw [hboth]
  unfold RepeatsFit
  split
  · rename_i hall
    have hmin : (g.minLatency : ℚ) ≤ 0 ↔ g.minLatency = 0 := by
      rw [← Nat.cast_zero, Nat.cast_le, Nat.le_zero]
    rw [h.averageLatency_of_all hall, hmin, h.min, least_eq_zero_iff (by decide)]
    exact and_iff_left (Nat.cast_nonneg _)
  · rename_i hall
    have htotal : g.totalLatency + lostLatency samples = (samples.map Prod.snd).sum := by
      rw [h.total, u64, lostLatency]
      exact Nat.mod_add_div' _ _
    rw [h.averageLatency_eq (card_keys_pos hne) (lt_of_le_of_ne hle hall), h.min, h.max]
    exact mean_between_iff hne htotal (fun v hv => least_le hv) fun v hv => le_greatest hv

/-- **The latency statistics**: after any messages of a test, the average lies between the least
    and the greatest latency exactly if the repeats do not weigh too much. -/
theorem latency_coherent_iff (g : StressMeter) (startData : StressTestStartData)
    {arrivals : List StressArrival} (hne : arrivals ≠ []) :
    LatencyCoherent (g.handle (.stressStart startData :: arrivals.map .stressData)) ↔
      RepeatsFit (arrivals.map sample) :=
  (hasMeasured_handle g startData arrivals).coherent_iff (List.map_eq_nil_iff.not.mpr hne)
    (card_keys_le arrivals)

/-- **Where no number comes twice** among fewer messages than there are numbers, the average lies
    between the least and the greatest latency. -/
theorem latencyCoherent_of_nodup (g : StressMeter) (startData : StressTestStartData)
    {arrivals : List StressArrival} (hne : arrivals ≠ []) (hfew : arrivals.length < 2 ^ 32)
    (hnodup : (arrivals.map fun a => a.stressData.sequenceNumber).Nodup) :
    LatencyCoherent (g.handle (.stressStart startData :: arrivals.map .stressData)) := by
  refine ((hasMeasured_handle g startData arrivals).coherent_iff (List.map_eq_nil_iff.not.mpr hne)
    (card_keys_le arrivals)).mpr ((repeatsFit_iff_of_few hfew).mpr ?_)
  have hkeys : ((arrivals.map sample).map Prod.fst).Nodup := by
    rw [List.map_map]
    exact hnodup
  rw [repeats_eq_nil hkeys fun _ _ => Finset.notMem_empty _, List.sum_nil]
  exact Nat.zero_le _

/-- A message that has come twice, and two others that were slower. -/
theorem latency_coherent_iff_slow :
    LatencyCoherent (idle.handle (.stressStart threeMessages ::
      [message 1 5, message 1 5, message 2 9, message 3 7].map .stressData)) :=
  (latency_coherent_iff idle threeMessages (List.cons_ne_nil _ _)).mpr
    ((repeatsFit_iff_of_few (by decide)).mpr (by decide))

/-- **A message that has come twice**, and no other: 5 milliseconds each time, and 10 on average. -/
theorem latency_incoherent :
    let g := idle.handle (.stressStart threeMessages ::
      [message 1 5, message 1 5].map .stressData)
    g.averageLatency = 10 ∧ g.maxLatency = 5 ∧ ¬ LatencyCoherent g := by
  have h := hasMeasured_handle idle threeMessages [message 1 5, message 1 5]
  refine ⟨?_, h.max, ?_⟩
  · have htotal : u64 ([5, 5] : List Nat).sum = 10 := by decide
    have hcard : (keys [sample (message 1 5), sample (message 1 5)]).card = 1 := by decide
    rw [h.averageLatency_eq (by decide) (by decide), h.total]
    exact (congrArg₂ (fun total count : Nat => (total : ℚ) / count) htotal hcard).trans
      (by norm_num)
  · rw [h.coherent_iff (List.cons_ne_nil _ _) (card_keys_le _), repeatsFit_iff_of_few (by decide)]
    decide

end StressMeter

end ServerCore
