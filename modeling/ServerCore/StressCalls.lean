/-
  File:      ServerCore/StressCalls.lean
  Subject:   What a call of OnRecvPacket does to the stress test, and what it sends, on both sides.

  `FromClient` and `FromServer` say what either side sends: whole packets that the other can read.
  A call takes such a packet for what it is, whatever stands behind it in the receive buffer, and
  sends such packets again.

  * `GameSession.handle_spec`, `ClientEnd.handle_spec`: a call does to the stress test what the
    packet says, and what it sends are packets that the other side takes for what they are.
-/
import ServerCore.ClientReceive

namespace ServerCore

open Seg LittleEndian Layout

/-! ## 1. Packets of the chat -/

/-- A chat packet is its header and the text with its NUL. -/
theorem chatPacket_eq (mem : Memory) (id : Nat) (msg : List UInt8) :
    chatPacket mem id msg =
      (strcpyS sizeofMsg msg).map fun copied => packetOf mem sizeofChatPacket id [⟨4, copied⟩] :=
  rfl

/-- **A chat packet that is sent** is well formed, and behind its header stand the text and its
    NUL. -/
theorem chatPacket_spec {mem : Memory} {id : Nat} {msg p : List UInt8} (hid : id < 2 ^ 16)
    (h : chatPacket mem id msg = some p) :
    WellFormedPacket p ∧ packetId p = id ∧ ∃ rest, p.drop 4 = cString msg ++ 0 :: rest := by
  rw [chatPacket_eq] at h
  obtain ⟨copied, hcopied, rfl⟩ := Option.map_eq_some_iff.mp h
  unfold strcpyS at hcopied
  split at hcopied
  case isFalse => nomatch hcopied
  case isTrue hroom =>
  obtain rfl := Option.some.inj hcopied
  have hbehind : BehindHeader sizeofChatPacket [⟨4, cString msg ++ [0]⟩] := by
    have h104 : sizeofChatPacket = 4 + sizeofMsg := rfl
    refine ⟨⟨?_, List.pairwise_singleton _ _⟩, ?_⟩
    · simp only [List.forall_mem_singleton, Stored.stop, List.length_append, List.length_singleton]
      omega
    · exact List.forall_mem_singleton.mpr (Nat.le_refl 4)
  refine ⟨wellFormed_packetOf hbehind (by decide) (by decide),
    packetId_packetOf hbehind (by decide) hid, ?_⟩
  have hslice := slice_storeAll (hbehind.disjoint_packet mem id (by decide))
    ⟨4, cString msg ++ [0]⟩
    (List.mem_cons_of_mem _ (List.mem_cons_of_mem _ (List.mem_cons_self ..)))
  unfold slice at hslice
  rw [packetOf, ← List.take_append_drop (cString msg ++ [0]).length (List.drop 4 _), hslice,
    List.append_assoc, List.singleton_append]
  exact ⟨_, rfl⟩

/-- The text that is read of it. -/
theorem cString_chatPacket {mem : Memory} {id : Nat} {msg p : List UInt8} (hid : id < 2 ^ 16)
    (h : chatPacket mem id msg = some p) : cString (p.drop 4) = cString msg := by
  obtain ⟨-, -, rest, hdrop⟩ := chatPacket_spec hid h
  have hzero : 0 ∉ cString msg := fun h0 => by simpa using List.mem_takeWhile_imp h0
  rw [hdrop, cString_append hzero]
  exact List.append_nil _

/-- What holds of the packets on the events and of those of the callback holds of all that goes
    out. -/
theorem forall_mem_sentOn {f : Bool → Path → Option (List (List UInt8))} {Q : List UInt8 → Prop}
    (hf : ∀ success filePath ps, f success filePath = some ps → ∀ p ∈ ps, Q p) :
    ∀ (events : List TransferEvent) {ps : List (List UInt8)}, (∀ p, .send p ∈ events → Q p) →
      sentOn f events = some ps → ∀ p ∈ ps, Q p
  | [], _, _, h => by
      cases h
      exact List.forall_mem_nil _
  | .send p :: events, _, hsend, h => by
      obtain ⟨ps, hps, rfl⟩ := Option.map_eq_some_iff.mp h
      exact List.forall_mem_cons.mpr ⟨hsend p (List.mem_cons_self ..),
        forall_mem_sentOn hf events (fun q hq => hsend q (List.mem_cons_of_mem _ hq)) hps⟩
  | .complete _ success filePath :: events, _, hsend, h => by
      obtain ⟨ps, hps, h⟩ := Option.bind_eq_some_iff.mp h
      obtain ⟨qs, hqs, rfl⟩ := Option.map_eq_some_iff.mp h
      exact List.forall_mem_append.mpr ⟨hf _ _ _ hps,
        forall_mem_sentOn hf events (fun q hq => hsend q (List.mem_cons_of_mem _ hq)) hqs⟩
  | .schedule _ :: events, _, hsend, h =>
      forall_mem_sentOn hf events (fun q hq => hsend q (List.mem_cons_of_mem _ hq)) h

/-- The receiving side of a file transfer sends nothing itself. -/
theorem send_not_mem_events (s : FilePacketSession) (buffer : List UInt8) (env : Surroundings)
    (p : List UInt8) :
    .send p ∉ if isFileTransferPacket (packetId buffer) then s.events buffer env else [] := by
  intro h
  split at h
  case isFalse => nomatch h
  unfold FilePacketSession.events at h
  split at h
  · nomatch h
  · split at h
    · have hout := processFileChunk_outcome s.fs s.fileTransferManager (.read buffer) env.time
        env.chunk
      generalize processFileChunk s.fs s.fileTransferManager (.read buffer) env.time env.chunk
        = r at h hout
      obtain ⟨result, fs, m, events⟩ := r
      cases hout with
      | refused => nomatch h
      | failed => nomatch h
      | accepted key context path =>
          dsimp only at h
          split at h
          · nomatch List.mem_singleton.mp h
          · nomatch h
    · nomatch h

/-- **What the client sends**: whole packets that the server can read. Those of a file transfer are
    sent where `files` says so. -/
structure FromClient (files : Prop) (p : List UInt8) : Prop where
  wellFormed : WellFormedPacket p
  fits : GameSession.PacketFits true p
  file : isFileTransferPacket (packetId p) = true → files

/-- **What the server sends**: whole packets that the client can read, and none of a file
    transfer. -/
structure FromServer (p : List UInt8) : Prop where
  wellFormed : WellFormedPacket p
  fits : ServerPacketFits true p
  noFile : isFileTransferPacket (packetId p) = false

/-- A packet of one of three kinds that are none of a file transfer is none either. -/
theorem noFile_of_kinds {α : Type} {id a b c : Nat} {x y z : α} {q : α}
    (h : (if id = a then some x else if id = b then some y else if id = c then some z else none) =
      some q)
    (ha : isFileTransferPacket a = false) (hb : isFileTransferPacket b = false)
    (hc : isFileTransferPacket c = false) : isFileTransferPacket id = false := by
  split at h
  · rename_i hid
    exact hid ▸ ha
  · split at h
    · rename_i hid
      exact hid ▸ hb
    · split at h
      · rename_i hid
        exact hid ▸ hc
      · nomatch h

/-- The packets of the stress test are none of a file transfer. -/
theorem noFile_of_clientPacketOf {p : List UInt8} {q : ClientPacket}
    (h : clientPacketOf p = some q) : isFileTransferPacket (packetId p) = false :=
  noFile_of_kinds h rfl rfl rfl

theorem noFile_of_serverPacketOf {p : List UInt8} {q : ServerPacket}
    (h : serverPacketOf p = some q) : isFileTransferPacket (packetId p) = false :=
  noFile_of_kinds h rfl rfl rfl

/-- The answer of the server to a chat message. -/
theorem ofString_answer : Path.ofString "Server received your message!" =
    [0x53, 0x65, 0x72, 0x76, 0x65, 0x72, 0x20, 0x72, 0x65, 0x63, 0x65, 0x69, 0x76, 0x65, 0x64, 0x20,
      0x79, 0x6F, 0x75, 0x72, 0x20, 0x6D, 0x65, 0x73, 0x73, 0x61, 0x67, 0x65, 0x21] := by
  rw [show "Server received your message!" = String.ofList ['S', 'e', 'r', 'v', 'e', 'r', ' ',
    'r', 'e', 'c', 'e', 'i', 'v', 'e', 'd', ' ', 'y', 'o', 'u', 'r', ' ', 'm', 'e', 's', 's',
    'a', 'g', 'e', '!'] from rfl, Path.ofString_ofList]
  decide

/-- **A chat packet, for the side that takes it**: it is whole and of no other kind, and there is a
    NUL behind its header. -/
theorem chatPacket_kind {mem : Memory} {id : Nat} {msg p : List UInt8} (hid : id < 2 ^ 16)
    (h : chatPacket mem id msg = some p) :
    WellFormedPacket p ∧ 0 ∈ p.drop 4 ∧ packetId p = id ∧
      ∀ other, other ≠ id → packetId p ≠ other := by
  obtain ⟨hwf, hpid, rest, hdrop⟩ := chatPacket_spec hid h
  exact ⟨hwf, hdrop ▸ List.mem_append_right _ (List.mem_cons_self ..), hpid,
    fun other hne e => hne (e.symm.trans hpid)⟩

/-- A chat packet of the server, which its stress test has nothing to do with. -/
theorem fromServer_chatPacket {mem : Memory} {msg p : List UInt8}
    (h : chatPacket mem pktSChat msg = some p) : FromServer p ∧ serverPacketOf p = none := by
  obtain ⟨hwf, hnul, hid, hne⟩ := chatPacket_kind (by decide) h
  refine ⟨⟨hwf, ⟨hwf.1, fun _ => hnul, fun h => absurd h (hne _ (by decide)),
    fun h => absurd h (hne _ (by decide)), fun h => absurd h (hne _ (by decide)),
    fun h => absurd h (hne _ (by decide))⟩, hid ▸ rfl⟩, ?_⟩
  rw [serverPacketOf, hid]
  rfl

/-- A chat packet of the client. -/
theorem fromClient_chatPacket (files : Prop) {mem : Memory} {msg p : List UInt8}
    (h : chatPacket mem pktCChat msg = some p) :
    FromClient files p ∧ clientPacketOf p = none := by
  obtain ⟨hwf, hnul, hid, hne⟩ := chatPacket_kind (by decide) h
  have hfile : isFileTransferPacket (packetId p) = false := hid ▸ rfl
  refine ⟨⟨hwf, ⟨hwf.1, fun _ => hnul, fun h => absurd h (hne _ (by decide)),
    fun h => absurd h (hne _ (by decide)), fun h => absurd h (hne _ (by decide)),
    fun h => absurd h (hne _ (by decide))⟩, fun h => nomatch hfile.symm.trans h⟩, ?_⟩
  rw [clientPacketOf, hid]
  rfl

/-- The notices of the server. -/
theorem fromServer_sentOn {mem : Memory} {events : List TransferEvent} {ps : List (List UInt8)}
    (hsend : ∀ p, .send p ∉ events)
    (h : sentOn (GameSession.transferComplete mem) events = some ps) :
    ∀ p ∈ ps, FromServer p ∧ serverPacketOf p = none := by
  refine forall_mem_sentOn (fun success filePath qs hqs => ?_) _
    (fun p hp => absurd hp (hsend p)) h
  unfold GameSession.transferComplete at hqs
  split at hqs
  · obtain ⟨q, hq, rfl⟩ := Option.map_eq_some_iff.mp hqs
    exact List.forall_mem_singleton.mpr (fromServer_chatPacket hq)
  · cases hqs
    exact List.forall_mem_nil _

/-- What the client sends on the events of its transfers. -/
theorem fromClient_sentOn (files : Prop) {mem : Memory} {events : List TransferEvent}
    {ps : List (List UInt8)}
    (hsend : ∀ p, .send p ∈ events → FromClient files p ∧ clientPacketOf p = none)
    (h : sentOn (fun success filePath =>
      ClientSession.transferComplete mem success filePath false) events = some ps) :
    ∀ p ∈ ps, FromClient files p ∧ clientPacketOf p = none := by
  refine forall_mem_sentOn (fun success filePath qs hqs => ?_) _ hsend h
  unfold ClientSession.transferComplete at hqs
  split at hqs
  · obtain ⟨q, hq, rfl⟩ := Option.map_eq_some_iff.mp hqs
    exact List.forall_mem_singleton.mpr (fromClient_chatPacket files hq)
  · cases hqs
    exact List.forall_mem_nil _

/-! ## 2. What a call does -/

/-- The stress test of the server after a packet, and what it replies; other packets do nothing. -/
def StressServer.receive (g : StressServer) : Option ClientPacket → StressServer × List ServerPacket
  | none => (g, [])
  | some p => g.onRecvPacket p

/-- The stress test of the client after a packet. `none`: the process ended. -/
def StressClient.receive (c : StressClient) :
    Option ServerPacket → Option (StressClient × List ClientPacket)
  | none => some (c, [])
  | some p => c.onRecvPacket p

namespace GameSession

/-- **A call of the server** does what the packet says; a chat message is answered. -/
theorem onRecvPacket_receive (g : GameSession) (buffer : List UInt8) (env : CallEnv) :
    (g.onRecvPacket buffer (surroundings env)).1.stressTest =
        (g.stressTest.receive (clientPacketOf buffer)).1 ∧
      (g.onRecvPacket buffer (surroundings env)).2.1 =
        if packetId buffer = pktCChat then [.chat "Server received your message!"]
        else (g.stressTest.receive (clientPacketOf buffer)).2.map .stress := by
  unfold onRecvPacket clientPacketOf
  dsimp only
  by_cases hchat : packetId buffer = pktCChat
  · rw [if_pos hchat, if_pos hchat, hchat]
    exact ⟨rfl, rfl⟩
  rw [if_neg hchat, if_neg hchat]
  by_cases hstart : packetId buffer = pktCStressStart
  · rw [if_pos hstart, if_pos hstart]
    exact ⟨rfl, rfl⟩
  rw [if_neg hstart, if_neg hstart]
  by_cases hdata : packetId buffer = pktCStressData
  · rw [if_pos hdata, if_pos hdata]
    cases hactive : g.stressTest.stressTestActive with
    | false => simp [StressServer.receive, StressServer.onRecvPacket, hactive]
    | true => exact ⟨rfl, rfl⟩
  rw [if_neg hdata, if_neg hdata]
  by_cases hend : packetId buffer = pktCStressEnd
  · rw [if_pos hend, if_pos hend]
    cases hactive : g.stressTest.stressTestActive with
    | false => simp [StressServer.receive, StressServer.onRecvPacket, hactive]
    | true => exact ⟨rfl, rfl⟩
  rw [if_neg hend, if_neg hend]
  split
  · exact ⟨rfl, rfl⟩
  · exact ⟨rfl, rfl⟩

/-- The server takes the packet of a call for what stands in the buffer. -/
theorem clientPacketOf_packet {c : RecvCall} (hc : c.Framed) (hfits : PacketFits true c.packet) :
    clientPacketOf c.packet = clientPacketOf c.buffer := by
  obtain ⟨h4, -, hstart, hdata, -, -⟩ := (packetFits_iff hc).mp hfits
  have hread : ∀ {offset}, offset + 4 ≤ c.len →
      readLe c.packet offset 4 = readLe c.buffer offset 4 :=
    fun h => readLe_take h
  unfold clientPacketOf
  rw [packetId_packet h4]
  split
  · rename_i hid
    have h16 := hstart hid
    unfold startData
    congr 3
    · exact hread (by omega)
    · exact hread (by omega)
    · exact hread (by omega)
  · split
    · rename_i hid
      have h12 := hdata hid rfl
      rw [hread (by omega)]
    · rfl

/-- **The replies answer the call.** -/
theorem answers_receive (g : StressServer) {c : RecvCall} (hc : c.Framed)
    (hfits : PacketFits true c.packet) :
    ∀ p ∈ (g.receive (clientPacketOf c.buffer)).2, p.Answers c := by
  obtain ⟨-, -, -, hdata, -, -⟩ := (packetFits_iff hc).mp hfits
  unfold clientPacketOf
  split
  · exact List.forall_mem_singleton.mpr trivial
  · split
    · rename_i hid
      unfold StressServer.receive StressServer.onRecvPacket
      dsimp only
      split
      · exact List.forall_mem_nil _
      · exact List.forall_mem_singleton.mpr ⟨hdata hid rfl, rfl⟩
    · split
      · unfold StressServer.receive StressServer.onRecvPacket
        dsimp only
        split
        · exact List.forall_mem_nil _
        · exact List.forall_mem_singleton.mpr
            ⟨g.stressTestConfig.messageCount_lt, u32_lt _, u32_lt _⟩
      · exact List.forall_mem_nil _

theorem mapM_replyBytes (buffer : List UInt8) (env : CallEnv) : ∀ ps : List ServerPacket,
    (ps.map GameReply.stress).mapM (replyBytes buffer env) =
      some (ps.map (bytesOf buffer env.mem env.floats))
  | [] => rfl
  | p :: ps => by
      rw [List.map_cons, List.mapM_cons, mapM_replyBytes buffer env ps]
      rfl

/-- **A call of the server**: the stress test does what the packet says, and what is sent are
    packets that the client takes for the replies. -/
theorem handle_spec {g g' : GameSession} {c : RecvCall} {env : CallEnv} {ps : List (List UInt8)}
    (hc : c.Framed) (hfits : PacketFits true c.packet)
    (h : g.handle c.buffer env = some (g', ps)) :
    g'.stressTest = (g.stressTest.receive (clientPacketOf c.packet)).1 ∧
      ps.filterMap serverPacketOf = (g.stressTest.receive (clientPacketOf c.packet)).2 ∧
      ∀ p ∈ ps, FromServer p := by
  obtain ⟨hstress, hreplies⟩ := g.onRecvPacket_receive c.buffer env
  have hanswers := answers_receive g.stressTest hc hfits
  rw [clientPacketOf_packet hc hfits]
  unfold handle at h
  dsimp only at h
  obtain ⟨replies, hbytes, h⟩ := Option.bind_eq_some_iff.mp h
  obtain ⟨notices, hnotices, e⟩ := Option.map_eq_some_iff.mp h
  obtain ⟨rfl, rfl⟩ := Prod.mk.inj e
  have hother := fromServer_sentOn (send_not_mem_events _ _ _) hnotices
  have hnone : notices.filterMap serverPacketOf = [] :=
    List.filterMap_eq_nil_iff.mpr fun p hp => (hother p hp).2
  have hfitsn : ∀ p ∈ notices, FromServer p := fun p hp => (hother p hp).1
  rw [List.filterMap_append, hnone, List.append_nil]
  rw [hreplies] at hbytes
  refine ⟨hstress, ?_⟩
  split at hbytes
  · rename_i hid
    -- the answer to a chat message is none of the stress test
    rw [List.mapM_cons, List.mapM_nil] at hbytes
    obtain ⟨p, hp, e⟩ := Option.bind_eq_some_iff.mp hbytes
    obtain rfl := Option.some.inj e
    have hchat := fromServer_chatPacket hp
    have hnot : clientPacketOf c.buffer = none := by
      rw [clientPacketOf, hid]
      rfl
    rw [hnot, List.filterMap_cons_none hchat.2]
    exact ⟨rfl, List.forall_mem_cons.mpr ⟨hchat.1, hfitsn⟩⟩
  · rw [mapM_replyBytes] at hbytes
    obtain rfl := Option.some.inj hbytes
    generalize (g.stressTest.receive (clientPacketOf c.buffer)).2 = qs at hanswers ⊢
    have hall : ∀ q ∈ qs, (serverPacketOf ∘ bytesOf c.buffer env.mem env.floats) q = some q :=
      fun q hq => serverPacketOf_bytesOf env.mem env.floats hc (hanswers q hq)
    constructor
    · rw [List.filterMap_map, List.filterMap_congr hall, List.filterMap_some]
    · refine List.forall_mem_append.mpr ⟨List.forall_mem_map.mpr fun q hq => ?_, hfitsn⟩
      obtain ⟨hwf, hfit⟩ := serverPacketFits_bytesOf env.mem env.floats hc (hanswers q hq) true
      exact ⟨hwf, hfit, noFile_of_serverPacketOf (hall q hq)⟩

end GameSession

namespace StressClient

/-- What the client sends are packets of `uint32_t` numbers. -/
theorem inRange_sendStressTestData (c : StressClient) :
    ∀ p ∈ c.sendStressTestData.2, p.InRange := by
  unfold sendStressTestData
  split
  · exact List.forall_mem_nil _
  · exact List.forall_mem_singleton.mpr (u32_lt _)

theorem inRange_endStressTest (c : StressClient) : ∀ p ∈ c.endStressTest, p.InRange := by
  unfold endStressTest
  split
  · exact List.forall_mem_nil _
  · exact List.forall_mem_singleton.mpr trivial

theorem inRange_requestStressTest (c : StressClient) (d : StressTestStartData) :
    ∀ p ∈ (c.requestStressTest d).2, p.InRange := by
  unfold requestStressTest
  split
  · exact List.forall_mem_nil _
  · split
    · exact List.forall_mem_nil _
    · exact List.forall_mem_singleton.mpr trivial

theorem inRange_onTimer {c : StressClient} {r : StressClient × List ClientPacket}
    (h : c.onTimer = some r) : ∀ p ∈ r.2, p.InRange := by
  unfold onTimer at h
  dsimp only at h
  split at h
  · nomatch h
  · obtain rfl := Option.some.inj h
    split
    · exact inRange_sendStressTestData _
    · exact List.forall_mem_nil _

theorem inRange_receive {c : StressClient} {q : Option ServerPacket}
    {r : StressClient × List ClientPacket} (h : c.receive q = some r) : ∀ p ∈ r.2, p.InRange := by
  cases q with
  | none =>
      cases h
      exact List.forall_mem_nil _
  | some q =>
      unfold receive onRecvPacket at h
      cases q with
      | stressStart =>
          cases h
          exact inRange_sendStressTestData _
      | stressData n =>
          dsimp only at h
          split at h
          · cases h
            exact List.forall_mem_nil _
          · obtain ⟨c', -, rfl⟩ := Option.map_eq_some_iff.mp h
            split
            · exact inRange_endStressTest c'
            · exact List.forall_mem_nil _
      | stressResult result =>
          cases h
          exact List.forall_mem_nil _

/-- **The server takes what the client sends for what it is.** -/
theorem sent_spec (files : Prop) (c : StressClient) (env : SendEnv) {ps : List ClientPacket}
    (h : ∀ p ∈ ps, p.InRange) :
    (ps.map (c.bytesOf env)).filterMap clientPacketOf = ps ∧
      ∀ p ∈ ps.map (c.bytesOf env), FromClient files p := by
  have hall : ∀ p ∈ ps, (clientPacketOf ∘ c.bytesOf env) p = some p := fun p hp =>
    clientPacketOf_bytesOf c env (h p hp)
  constructor
  · rw [List.filterMap_map, List.filterMap_congr hall, List.filterMap_some]
  · refine List.forall_mem_map.mpr fun p hp =>
      ⟨wellFormed_bytesOf c env p, packetFits_bytesOf c env true p, fun hfile => ?_⟩
    rw [noFile_of_clientPacketOf (hall p hp)] at hfile
    nomatch hfile

end StressClient

namespace ClientEnd

/-- The client takes the packet of a call for what stands in the buffer. -/
theorem serverPacketOf_packet {c : RecvCall} (hc : c.Framed)
    (hfits : ServerPacketFits true c.packet) :
    serverPacketOf c.packet = serverPacketOf c.buffer := by
  obtain ⟨h4, -, hdata, hresult, -, -⟩ := (serverPacketFits_iff hc).mp hfits
  have hread : ∀ {offset}, offset + 4 ≤ c.len →
      readLe c.packet offset 4 = readLe c.buffer offset 4 :=
    fun h => readLe_take h
  unfold serverPacketOf
  rw [GameSession.packetId_packet h4]
  split
  · rfl
  · split
    · rename_i hid
      have h12 := hdata hid rfl
      rw [hread (by omega)]
    · split
      · rename_i hid
        have h32 := hresult hid
        rw [hread (by omega), hread (by omega), hread (by omega)]
      · rfl

/-- **A call of the client** does what the packet says. -/
theorem onRecvPacket_receive {c : ClientEnd} {buffer : List UInt8} {env : Surroundings}
    {r : ClientEnd × List ClientPacket × List ReadRange} (h : c.onRecvPacket buffer env = some r) :
    c.stressTest.receive (serverPacketOf buffer) = some (r.1.stressTest, r.2.1) := by
  have hstress : ∀ {packet reads}, c.onStress packet reads = some r →
      c.stressTest.onRecvPacket packet = some (r.1.stressTest, r.2.1) := by
    intro packet reads h
    obtain ⟨q, hq, rfl⟩ := Option.map_eq_some_iff.mp h
    exact hq
  unfold onRecvPacket at h
  unfold serverPacketOf
  dsimp only at h
  by_cases hchat : packetId buffer = pktSChat
  · rw [if_pos hchat] at h
    cases h
    rw [hchat]
    rfl
  rw [if_neg hchat] at h
  by_cases hstart : packetId buffer = pktSStressStart
  · rw [if_pos hstart] at h ⊢
    exact hstress h
  rw [if_neg hstart] at h ⊢
  by_cases hdata : packetId buffer = pktSStressData
  · rw [if_pos hdata] at h ⊢
    cases hactive : c.stressTest.stressTestActive with
    | false =>
        rw [hactive] at h
        cases h
        simp [StressClient.receive, StressClient.onRecvPacket, hactive]
    | true =>
        rw [hactive] at h
        exact hstress h
  rw [if_neg hdata] at h ⊢
  by_cases hresult : packetId buffer = pktSStressResult
  · rw [if_pos hresult] at h ⊢
    exact hstress h
  rw [if_neg hresult] at h ⊢
  split at h
  · cases h
    rfl
  · cases h
    rfl

/-- **A call of the client**: the stress test does what the packet says, and what is sent are
    packets that the server takes for what the test sends. -/
theorem handle_spec (files : Prop) {c c' : ClientEnd} {call : RecvCall} {env : CallEnv}
    {ps : List (List UInt8)} (hcall : call.Framed) (hfits : ServerPacketFits true call.packet)
    (h : c.handle call.buffer env = some (c', ps)) :
    c.stressTest.receive (serverPacketOf call.packet) =
        some (c'.stressTest, ps.filterMap clientPacketOf) ∧
      ∀ p ∈ ps, FromClient files p := by
  obtain ⟨r, hr, h⟩ := Option.bind_eq_some_iff.mp h
  obtain ⟨notices, hnotices, e⟩ := Option.map_eq_some_iff.mp h
  obtain ⟨rfl, rfl⟩ := Prod.mk.inj e
  have hother := fromClient_sentOn files
    (fun p hp => absurd hp (send_not_mem_events _ _ _ p)) hnotices
  have hreceive := onRecvPacket_receive hr
  obtain ⟨hsent, hfitsr⟩ := r.1.stressTest.sent_spec files env.toSendEnv
    (StressClient.inRange_receive hreceive)
  rw [serverPacketOf_packet hcall hfits, hreceive, List.filterMap_append, hsent,
    List.filterMap_eq_nil_iff.mpr fun p hp => (hother p hp).2, List.append_nil]
  exact ⟨rfl, List.forall_mem_append.mpr ⟨hfitsr, fun p hp => (hother p hp).1⟩⟩

end ClientEnd

end ServerCore
