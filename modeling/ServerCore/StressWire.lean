/-
  File:      ServerCore/StressWire.lean
  Subject:   The stress test over the byte streams: a ClientSession and a GameSession, the bytes on
             the way between them, and the reads that take them up in pieces.

  `StressWire` are the two sessions with all that they send, byte by byte; beside the packets of the
  stress test the client may send any others. A read takes any number of bytes, and the session
  handles the packets it completes, one call after another.

  * `stress_wire_refines`: every run is one of `StressTest`, in which whole packets arrive.
  * `stress_wire_reads`: on every run the reads go through, and no call reads beyond its packet.
  * `stress_wire_agreement`: so the test comes to the same end over the streams.
-/
import ServerCore.PacketPipe
import ServerCore.StressAgreement
import ServerCore.StressCalls

namespace ServerCore

open Trans

/-! ## 1. The machine -/

/-- The calls are handled one after another, each in its surroundings: the session afterwards, and
    all that it has sent. `none`: the process ended. -/
def handleAll {σ : Type} (handle : σ → List UInt8 → CallEnv → Option (σ × List (List UInt8))) :
    σ → (Nat → CallEnv) → List RecvCall → Option (σ × List (List UInt8))
  | s, _, [] => some (s, [])
  | s, env, c :: cs =>
      (handle s c.buffer (env 0)).bind fun r =>
        (handleAll handle r.1 (fun n => env (n + 1)) cs).map fun r' => (r'.1, r.2 ++ r'.2)

/-- The two sessions, the bytes on the way between them, and all packets sent so far. -/
structure StressWire where
  client : ClientEnd
  server : GameSession
  toServer : PacketPipe
  toClient : PacketPipe
  clientSent : List (List UInt8)
  serverSent : List (List UInt8)

/-- What happens next: RequestStressTest is called; other code of the client sends a packet; the
    wait on the timer is over, or its handler is called; a read of `n` bytes completes on either
    side. -/
inductive WireStep where
  | request (startData : StressTestStartData) (env : SendEnv)
  | send (packet : List UInt8)
  | expire
  | timer (env : SendEnv)
  | toServer (n : Nat) (env : Nat → CallEnv)
  | toClient (n : Nat) (env : Nat → CallEnv)

namespace StressWire

/-- The client is at `client` and has sent `packets`. -/
def fromClient (s : StressWire) (client : ClientEnd) (packets : List (List UInt8)) : StressWire :=
  { s with client, toServer := s.toServer.put packets, clientSent := s.clientSent ++ packets }

/-- The server is at `server` and has sent `packets`. -/
def fromServer (s : StressWire) (server : GameSession) (packets : List (List UInt8)) : StressWire :=
  { s with server, toClient := s.toClient.put packets, serverSent := s.serverSent ++ packets }

/-- The stress test of the client is at `r.1` and has sent `r.2`. -/
def fromStress (s : StressWire) (env : SendEnv) (r : StressClient × List ClientPacket) :
    StressWire :=
  s.fromClient { s.client with stressTest := r.1 } (r.2.map (r.1.bytesOf env))

/-- **The step function.** `none`: not possible, or a process ended. -/
def next (s : StressWire) : WireStep → Option StressWire
  | .request startData env =>
      some (s.fromStress env (s.client.stressTest.requestStressTest startData))
  | .send packet => some (s.fromClient s.client [packet])
  | .expire => s.client.stressTest.expire.map fun stressTest =>
      { s with client := { s.client with stressTest } }
  | .timer env => s.client.stressTest.onTimer.map (s.fromStress env)
  | .toServer n env => (s.toServer.read n).bind fun (pipe, calls) =>
      (handleAll GameSession.handle s.server env calls).map fun (server, packets) =>
        { s with toServer := pipe }.fromServer server packets
  | .toClient n env => (s.toClient.read n).bind fun (pipe, calls) =>
      (handleAll ClientEnd.handle s.client env calls).map fun (client, packets) =>
        { s with toClient := pipe }.fromClient client packets

/-- Both sides just connected. -/
def start (client : ClientEnd) (server : GameSession) : StressWire :=
  ⟨client, server, .start, .start, [], []⟩

/-- What other code sends is none of the stress test, and none of a file transfer but where `files`
    says so; requests are made where `requests` says so. -/
def Sends (requests files : Prop) (_ : StressWire) : WireStep → Prop
  | .request _ _ => requests
  | .send packet => FromClient files packet ∧ clientPacketOf packet = none
  | _ => True

end StressWire

/-- Requests are made where `requests` says so. -/
def StressTest.Requests (requests : Prop) (_ : StressTest) : StressStep → Prop
  | .request _ => requests
  | _ => True

/-! ## 2. The refinement -/

section Simulation

variable {requests files : Prop}

/-- One arrival at the server, if the packet is one of the stress test. -/
theorem StressTest.reach_server_receive (requests : Prop) {t : StressTest} {q : Option ClientPacket}
    {rest : List ClientPacket} (ht : t.toServer = q.toList ++ rest) :
    Reach StressTest.next (StressTest.Requests requests) t
      ({ t with toServer := rest }.fromServer (t.server.receive q).1 (t.server.receive q).2) := by
  cases q with
  | none =>
      obtain ⟨c, g, ts, tc, cs, ss⟩ := t
      obtain rfl : ts = rest := ht
      unfold StressTest.fromServer StressServer.receive
      simp only [List.append_nil]
      exact .start
  | some q =>
      refine .step _ _ .toServer .start trivial ?_
      rw [StressTest.next, ht]
      rfl

/-- One arrival at the client. -/
theorem StressTest.reach_client_receive (requests : Prop) {t : StressTest} {q : Option ServerPacket}
    {rest : List ServerPacket} (ht : t.toClient = q.toList ++ rest)
    {r : StressClient × List ClientPacket} (hr : t.client.receive q = some r) :
    Reach StressTest.next (StressTest.Requests requests) t
      ({ t with toClient := rest }.fromClient r.1 r.2) := by
  cases q with
  | none =>
      obtain ⟨c, g, ts, tc, cs, ss⟩ := t
      obtain rfl : tc = rest := ht
      cases hr
      unfold StressTest.fromClient
      simp only [List.append_nil]
      exact .start
  | some q =>
      refine .step _ _ .toClient .start trivial ?_
      rw [StressTest.next, ht]
      exact Option.map_eq_some_iff.mpr ⟨r, hr, rfl⟩

/-- What the packets say, the first of them in front. -/
theorem filterMap_cons_toList {α β : Type _} (f : α → Option β) (a : α) (as : List α) :
    (a :: as).filterMap f = (f a).toList ++ as.filterMap f := by
  cases h : f a with
  | none => exact List.filterMap_cons_none h
  | some b => exact List.filterMap_cons_some h

/-- **The calls of one read**, over the packets that arrive: `T s later sent` is what the packets
    say where the session is at `s`, `later` are still to be handed over and `sent` were sent. If
    each call is some steps there, then all of them are. -/
theorem reach_handleAll {σ τ ι : Type} {handle : σ → List UInt8 → CallEnv →
      Option (σ × List (List UInt8))} {next : τ → ι → Option τ} {ok : τ → ι → Prop}
    {Fits Q : List UInt8 → Prop} (T : σ → List (List UInt8) → List (List UInt8) → τ)
    (hone : ∀ {s s' : σ} {c : RecvCall} {env : CallEnv} {ps : List (List UInt8)}
      (later sent : List (List UInt8)), c.Framed → Fits c.packet →
      handle s c.buffer env = some (s', ps) →
        Reach next ok (T s (c.packet :: later) sent) (T s' later (sent ++ ps)) ∧ ∀ p ∈ ps, Q p) :
    ∀ {calls : List RecvCall} {s s' : σ} {env : Nat → CallEnv} {ps : List (List UInt8)}
      (sent : List (List UInt8)), (∀ c ∈ calls, c.Framed) → (∀ c ∈ calls, Fits c.packet) →
      handleAll handle s env calls = some (s', ps) →
        Reach next ok (T s (calls.map RecvCall.packet) sent) (T s' [] (sent ++ ps)) ∧
          ∀ p ∈ ps, Q p
  | [], s, s', env, ps, sent, _, _, h => by
      cases h
      rw [List.append_nil]
      exact ⟨.start, List.forall_mem_nil _⟩
  | c :: calls, s, s', env, ps, sent, hcs, hfits, h => by
      obtain ⟨hc, hcs⟩ := List.forall_mem_cons.mp hcs
      obtain ⟨hfit, hfits⟩ := List.forall_mem_cons.mp hfits
      obtain ⟨⟨s₁, ps₁⟩, h₁, h⟩ := Option.bind_eq_some_iff.mp h
      obtain ⟨⟨s₂, ps₂⟩, h₂, e⟩ := Option.map_eq_some_iff.mp h
      obtain ⟨rfl, rfl⟩ := Prod.mk.inj e
      obtain ⟨hfirst, hps₁⟩ := hone (calls.map RecvCall.packet) sent hc hfit h₁
      obtain ⟨hrest, hps₂⟩ := reach_handleAll T hone (sent ++ ps₁) hcs hfits h₂
      rw [List.append_assoc] at hrest
      exact ⟨hfirst.trans hrest, List.forall_mem_append.mpr ⟨hps₁, hps₂⟩⟩

/-- **The calls of one read at the server** are arrivals of their packets. -/
theorem StressTest.reach_toServer (requests : Prop) {calls : List RecvCall} {g g' : GameSession}
    {env : Nat → CallEnv} {ps : List (List UInt8)} {t : StressTest} {rest : List ClientPacket}
    (hcs : ∀ c ∈ calls, c.Framed) (hfits : ∀ c ∈ calls, GameSession.PacketFits true c.packet)
    (h : handleAll GameSession.handle g env calls = some (g', ps))
    (hg : t.server = g.stressTest)
    (ht : t.toServer = (calls.map RecvCall.packet).filterMap clientPacketOf ++ rest) :
    Reach StressTest.next (StressTest.Requests requests) t
        ({ t with toServer := rest }.fromServer g'.stressTest (ps.filterMap serverPacketOf)) ∧
      ∀ p ∈ ps, FromServer p := by
  obtain ⟨c, g₀, ts, tc, cs, ss⟩ := t
  obtain rfl : g₀ = g.stressTest := hg
  obtain rfl : ts = _ := ht
  have hall := reach_handleAll (Q := FromServer)
    (fun (g : GameSession) later sent => StressTest.mk c g.stressTest
      (later.filterMap clientPacketOf ++ rest) (tc ++ sent.filterMap serverPacketOf) cs
      (ss ++ sent.filterMap serverPacketOf)) (fun {g g' call env ps} later sent hc hfit h => by
    obtain ⟨hstress, hsent, hps⟩ := GameSession.handle_spec hc hfit h
    refine ⟨?_, hps⟩
    have harrives : (call.packet :: later).filterMap clientPacketOf ++ rest =
        (clientPacketOf call.packet).toList ++ (later.filterMap clientPacketOf ++ rest) := by
      rw [filterMap_cons_toList, List.append_assoc]
    have hone := reach_server_receive requests (t := .mk c g.stressTest
      ((call.packet :: later).filterMap clientPacketOf ++ rest)
      (tc ++ sent.filterMap serverPacketOf) cs (ss ++ sent.filterMap serverPacketOf)) harrives
    unfold StressTest.fromServer at hone
    simp only [← hstress, ← hsent, List.append_assoc, ← List.filterMap_append] at hone
    exact hone) [] hcs hfits h
  simpa only [List.filterMap_nil, List.append_nil, List.nil_append, StressTest.fromServer]
    using hall

/-- **The calls of one read at the client** are arrivals of their packets. -/
theorem StressTest.reach_toClient (requests files : Prop) {calls : List RecvCall}
    {c c' : ClientEnd} {env : Nat → CallEnv} {ps : List (List UInt8)} {t : StressTest}
    {rest : List ServerPacket} (hcs : ∀ c ∈ calls, c.Framed)
    (hfits : ∀ c ∈ calls, ServerPacketFits true c.packet)
    (h : handleAll ClientEnd.handle c env calls = some (c', ps))
    (hc : t.client = c.stressTest)
    (ht : t.toClient = (calls.map RecvCall.packet).filterMap serverPacketOf ++ rest) :
    Reach StressTest.next (StressTest.Requests requests) t
        ({ t with toClient := rest }.fromClient c'.stressTest (ps.filterMap clientPacketOf)) ∧
      ∀ p ∈ ps, FromClient files p := by
  obtain ⟨c₀, g, ts, tc, cs, ss⟩ := t
  obtain rfl : c₀ = c.stressTest := hc
  obtain rfl : tc = _ := ht
  have hall := reach_handleAll (Q := FromClient files)
    (fun (c : ClientEnd) later sent => StressTest.mk c.stressTest g
      (ts ++ sent.filterMap clientPacketOf) (later.filterMap serverPacketOf ++ rest)
      (cs ++ sent.filterMap clientPacketOf) ss)
    (fun {c c' call env ps} later sent hcall hfit h => by
    obtain ⟨hstress, hps⟩ := ClientEnd.handle_spec files hcall hfit h
    refine ⟨?_, hps⟩
    have harrives : (call.packet :: later).filterMap serverPacketOf ++ rest =
        (serverPacketOf call.packet).toList ++ (later.filterMap serverPacketOf ++ rest) := by
      rw [filterMap_cons_toList, List.append_assoc]
    have hone := reach_client_receive requests (t := .mk c.stressTest g
      (ts ++ sent.filterMap clientPacketOf)
      ((call.packet :: later).filterMap serverPacketOf ++ rest)
      (cs ++ sent.filterMap clientPacketOf) ss) harrives hstress
    unfold StressTest.fromClient at hone
    simp only [List.append_assoc, ← List.filterMap_append] at hone
    exact hone) [] hcs hfits h
  simpa only [List.filterMap_nil, List.append_nil, List.nil_append, StressTest.fromClient]
    using hall

end Simulation

/-- The answer to a chat message has room in its packet. -/
theorem length_serverReceived :
    (cString (Path.ofString "Server received your message!")).length < sizeofMsg := by
  rw [ofString_answer]
  decide

/-- A call with a packet that is none of a file transfer does not end the server. -/
theorem GameSession.exists_handle (g : GameSession) {buffer : List UInt8}
    (hfile : isFileTransferPacket (packetId buffer) = false) (env : CallEnv) :
    ∃ r, g.handle buffer env = some r := by
  obtain ⟨-, hreplies⟩ := g.onRecvPacket_receive buffer env
  have hbytes : ∃ replies, (g.onRecvPacket buffer (surroundings env)).2.1.mapM
      (replyBytes buffer env) = some replies := by
    rw [hreplies]
    split
    · obtain ⟨p, hp⟩ := Option.isSome_iff_exists.mp
        ((chatPacket_isSome_iff env.mem pktSChat _).mpr length_serverReceived)
      refine ⟨[p], ?_⟩
      rw [List.mapM_cons, List.mapM_nil, replyBytes, hp]
      rfl
    · exact ⟨_, mapM_replyBytes buffer env _⟩
  obtain ⟨replies, hbytes⟩ := hbytes
  unfold handle
  dsimp only
  rw [hbytes, hfile]
  exact ⟨_, rfl⟩

/-- The calls of a read do not end the server. -/
theorem GameSession.exists_handleAll : ∀ {calls : List RecvCall} (g : GameSession)
    (env : Nat → CallEnv),
    (∀ c ∈ calls, isFileTransferPacket (packetId c.buffer) = false) →
    ∃ r, handleAll GameSession.handle g env calls = some r
  | [], _, _, _ => ⟨_, rfl⟩
  | c :: calls, g, env, h => by
      obtain ⟨hc, hcs⟩ := List.forall_mem_cons.mp h
      obtain ⟨r, hr⟩ := g.exists_handle hc (env 0)
      obtain ⟨r', hr'⟩ := exists_handleAll r.1 (fun n => env (n + 1)) hcs
      rw [handleAll, hr, Option.bind_some, hr']
      exact ⟨_, rfl⟩

namespace StressWire

/-- **The streams carry the packets of the stress test**: the sessions are the same, and the packets
    not handed over yet are what either side sends. -/
structure Carries (files : Prop) (s : StressWire) (t : StressTest) : Prop where
  client : t.client = s.client.stressTest
  server : t.server = s.server.stressTest
  toServer : ∃ later, s.toServer.Holds [] later ∧ t.toServer = later.filterMap clientPacketOf ∧
    ∀ p ∈ later, FromClient files p
  toClient : ∃ later, s.toClient.Holds [] later ∧ t.toClient = later.filterMap serverPacketOf ∧
    ∀ p ∈ later, FromServer p
  clientSent : t.clientSent = s.clientSent.filterMap clientPacketOf
  serverSent : t.serverSent = s.serverSent.filterMap serverPacketOf

theorem carries_start (files : Prop) (client : ClientEnd) (server : GameSession) :
    Carries files (start client server) (.start client.stressTest server.stressTest) where
  client := rfl
  server := rfl
  toServer := ⟨[], PacketPipe.holds_start, rfl, List.forall_mem_nil _⟩
  toClient := ⟨[], PacketPipe.holds_start, rfl, List.forall_mem_nil _⟩
  clientSent := rfl
  serverSent := rfl

/-- The client sends packets. -/
theorem Carries.fromClient {files : Prop} {s : StressWire} {t : StressTest}
    (h : Carries files s t) {client : ClientEnd} {c : StressClient} (hc : c = client.stressTest)
    {ps : List (List UInt8)}
    (hps : ∀ p ∈ ps, FromClient files p) {qs : List ClientPacket}
    (hqs : ps.filterMap clientPacketOf = qs) :
    Carries files (s.fromClient client ps) (t.fromClient c qs) := by
  obtain ⟨later, hH, ht, hfits⟩ := h.toServer
  refine ⟨hc, h.server, ⟨later ++ ps, hH.put fun p hp => (hps p hp).wellFormed, ?_, ?_⟩, h.toClient,
    ?_, h.serverSent⟩
  · show t.toServer ++ qs = _
    rw [List.filterMap_append, ht, hqs]
  · exact List.forall_mem_append.mpr ⟨hfits, hps⟩
  · show t.clientSent ++ qs = (s.clientSent ++ ps).filterMap clientPacketOf
    rw [List.filterMap_append, h.clientSent, hqs]

/-- The server sends packets. -/
theorem Carries.fromServer {files : Prop} {s : StressWire} {t : StressTest} (h : Carries files s t)
    {server : GameSession} {g : StressServer} (hg : g = server.stressTest)
    {ps : List (List UInt8)} (hps : ∀ p ∈ ps, FromServer p) :
    Carries files (s.fromServer server ps) (t.fromServer g (ps.filterMap serverPacketOf)) := by
  obtain ⟨later, hH, ht, hfits⟩ := h.toClient
  refine ⟨h.client, hg, h.toServer, ⟨later ++ ps, hH.put fun p hp => (hps p hp).wellFormed, ?_, ?_⟩,
    h.clientSent, ?_⟩
  · show t.toClient ++ _ = _
    rw [List.filterMap_append, ht]
  · exact List.forall_mem_append.mpr ⟨hfits, hps⟩
  · show t.serverSent ++ _ = (s.serverSent ++ ps).filterMap serverPacketOf
    rw [List.filterMap_append, h.serverSent]

/-- The stress test of the client sends packets. -/
theorem Carries.fromStress {files : Prop} {s : StressWire} {t : StressTest}
    (h : Carries files s t) (env : SendEnv)
    {r : StressClient × List ClientPacket} (hr : ∀ p ∈ r.2, p.InRange) :
    Carries files (s.fromStress env r) (t.fromClient r.1 r.2) := by
  obtain ⟨hsent, hfits⟩ := r.1.sent_spec files env hr
  exact h.fromClient rfl hfits hsent

/-- **A step over the streams** is a run of the packets. -/
theorem Carries.step {requests files : Prop} {s s' : StressWire} {l : WireStep} {t : StressTest}
    (h : Carries files s t) (hok : Sends requests files s l) (hs : s.next l = some s') :
    ∃ t', Reach StressTest.next (StressTest.Requests requests) t t' ∧ Carries files s' t' := by
  cases l with
  | request d env =>
      cases hs
      refine ⟨_, .step _ _ (.request d) .start hok rfl, ?_⟩
      rw [h.client]
      exact h.fromStress env (StressClient.inRange_requestStressTest _ d)
  | send packet =>
      cases hs
      obtain ⟨hpacket, hnone⟩ := hok
      refine ⟨t, .start, ?_⟩
      have hsent : [packet].filterMap clientPacketOf = [] := List.filterMap_cons_none hnone
      have hcarries := h.fromClient h.client (List.forall_mem_singleton.mpr hpacket) hsent
      rw [StressTest.fromClient_nil] at hcarries
      exact hcarries
  | expire =>
      obtain ⟨c, hc, rfl⟩ := Option.map_eq_some_iff.mp hs
      refine ⟨{ t with client := c }, .step _ _ .expire .start trivial ?_, rfl, h.server,
        h.toServer, h.toClient, h.clientSent, h.serverSent⟩
      rw [StressTest.next, h.client, hc]
      rfl
  | timer env =>
      obtain ⟨r, hr, rfl⟩ := Option.map_eq_some_iff.mp hs
      refine ⟨t.fromClient r.1 r.2, .step _ _ .timer .start trivial ?_,
        h.fromStress env (StressClient.inRange_onTimer hr)⟩
      rw [StressTest.next, h.client, hr]
      rfl
  | toServer n env =>
      obtain ⟨⟨pipe, calls⟩, hread, hs⟩ := Option.bind_eq_some_iff.mp hs
      obtain ⟨⟨server, ps⟩, hcalls, rfl⟩ := Option.map_eq_some_iff.mp hs
      obtain ⟨later, hH, ht, hfits⟩ := h.toServer
      obtain ⟨later', rfl, hframed, -, hH'⟩ := hH.taken hread
      rw [List.filterMap_append] at ht
      obtain ⟨hfits₁, hfits₂⟩ := List.forall_mem_append.mp hfits
      obtain ⟨hreach, hps⟩ := StressTest.reach_toServer requests hframed
        (fun c hc => (hfits₁ _ (List.mem_map_of_mem hc)).fits) hcalls h.server ht
      refine ⟨_, hreach, ?_⟩
      have hrest : Carries files { s with toServer := pipe }
          { t with toServer := later'.filterMap clientPacketOf } :=
        ⟨h.client, h.server, ⟨later', hH', rfl, hfits₂⟩, h.toClient, h.clientSent, h.serverSent⟩
      exact hrest.fromServer rfl hps
  | toClient n env =>
      obtain ⟨⟨pipe, calls⟩, hread, hs⟩ := Option.bind_eq_some_iff.mp hs
      obtain ⟨⟨client, ps⟩, hcalls, rfl⟩ := Option.map_eq_some_iff.mp hs
      obtain ⟨later, hH, ht, hfits⟩ := h.toClient
      obtain ⟨later', rfl, hframed, -, hH'⟩ := hH.taken hread
      rw [List.filterMap_append] at ht
      obtain ⟨hfits₁, hfits₂⟩ := List.forall_mem_append.mp hfits
      obtain ⟨hreach, hps⟩ := StressTest.reach_toClient requests files hframed
        (fun c hc => (hfits₁ _ (List.mem_map_of_mem hc)).fits) hcalls h.client ht
      refine ⟨_, hreach, ?_⟩
      have hrest : Carries files { s with toClient := pipe }
          { t with toClient := later'.filterMap serverPacketOf } :=
        ⟨h.client, h.server, h.toServer, ⟨later', hH', rfl, hfits₂⟩, h.clientSent, h.serverSent⟩
      exact hrest.fromClient rfl hps rfl

/-- **The server takes up what has arrived**, where nothing of a file transfer is sent. -/
theorem Carries.exists_toServer {s : StressWire} {t : StressTest} (h : Carries False s t) {n : Nat}
    (env : Nat → CallEnv) (h1 : 1 ≤ n) (hle : n ≤ s.toServer.onWay.length)
    (hsize : (n : Int) ≤ Session.bufferSize) :
    ∃ s', s.next (.toServer n env) = some s' ∧ s'.toServer.onWay = s.toServer.onWay.drop n ∧
      s'.clientSent = s.clientSent := by
  obtain ⟨later, hH, -, hfits⟩ := h.toServer
  obtain ⟨r, calls, ps, later₁, hread, rfl, hpackets, hframed, -, -⟩ :=
    hH.read (hH.readFits h1 hle hsize)
  have hnoFile : ∀ c ∈ calls, isFileTransferPacket (packetId c.buffer) = false := fun c hc => by
    have hfrom := hfits c.packet
      (List.mem_append_left _ (hpackets ▸ List.mem_map_of_mem hc))
    rw [← GameSession.packetId_packet ((hframed c hc).length_packet ▸ hfrom.fits.header)]
    exact Bool.eq_false_iff.mpr hfrom.file
  obtain ⟨r', hr'⟩ := s.server.exists_handleAll env hnoFile
  refine ⟨{ s with toServer := ⟨s.toServer.onWay.drop n, r⟩ }.fromServer r'.1 r'.2, ?_, rfl, rfl⟩
  rw [next, hread, Option.bind_some]
  dsimp only
  rw [hr']
  rfl

/-- **Over the streams as over packets.** Whatever the reads take and in whatever order things
    happen, with any other packets of the client between those of the stress test: every run is a
    run of the two stress tests between which whole packets arrive. -/
theorem stress_wire_refines (client : ClientEnd) (server : GameSession) (s : StressWire)
    (hr : Reach next (Sends True True) (start client server) s) :
    ∃ t, Reach StressTest.next always (.start client.stressTest server.stressTest) t ∧
      Carries True s t := by
  obtain ⟨t, ht, h⟩ := hr.simulate (carries_start True client server)
    fun _ _ _ _ h hok hs => h.step hok hs
  exact ⟨t, ht.mono (fun _ _ _ => trivial) fun _ _ _ h => h, h⟩

/-- A client without a stress test. -/
def idleClient : ClientEnd where
  stressTest := ⟨false, StressTest.oneMessage, 0, 0, 0, false, 0⟩
  files := ⟨.empty, .new, [0x63]⟩

/-- A send into a reservation of zeros. -/
def zeros : SendEnv := ⟨fun _ => 0, 0⟩

/-- Calls around which nothing fails. -/
def calm (_ : Nat) : CallEnv := ⟨zeros, fun _ => 0, Surroundings.calm⟩

/-- A test of one message was asked for: its packet is on the way, and nothing else was sent. -/
theorem exists_requested :
    ∃ s, (start idleClient .new).next (.request StressTest.oneMessage zeros) =
      some s ∧ s.toServer.onWay.length = 16 ∧
      s.clientSent.filterMap clientPacketOf = [.stressStart StressTest.oneMessage] := by
  refine ⟨_, rfl, ?_, ?_⟩
  · show ([] ++ [packetOf _ 16 _ (startFields _)].flatten).length = 16
    rw [List.nil_append, List.flatten_singleton,
      length_packetOf (behindHeader_startFields _) (by decide)]
  · exact (StressClient.sent_spec True _ zeros (StressClient.inRange_requestStressTest
      idleClient.stressTest _)).1

/-- One request, and the read that takes it up: the server has handled it as a packet. -/
theorem stress_wire_refines_request :
    ∃ s₀ s t, (start idleClient .new).next (.request StressTest.oneMessage zeros) = some s₀ ∧
      s₀.next (.toServer 16 calm) = some s ∧
      Reach StressTest.next always (.start idleClient.stressTest GameSession.new.stressTest) t ∧
      Carries True s t ∧ t.toServer = [] ∧
      t.clientSent = [.stressStart StressTest.oneMessage] := by
  obtain ⟨s₀, hs₀, hlen, hsent⟩ := exists_requested
  obtain ⟨t₀, -, h₀⟩ := (carries_start False idleClient .new).step
    (show Sends True False _ (.request _ _) from trivial) hs₀
  obtain ⟨s, hs, hway, hkept⟩ :=
    h₀.exists_toServer calm (by decide) (Nat.le_of_eq hlen.symm) (by decide)
  obtain ⟨t, ht, h⟩ := stress_wire_refines idleClient .new s
    (.step _ _ (.toServer _ _) (.step _ _ (.request _ _) .start trivial hs₀) trivial hs)
  obtain ⟨later, hH, htoServer, -⟩ := h.toServer
  obtain ⟨rfl, -⟩ := hH.nil_of_empty (hway.trans (List.drop_of_length_le (Nat.le_of_eq hlen)))
  exact ⟨s₀, s, t, hs₀, hs, ht, h, htoServer, h.clientSent.trans (hkept ▸ hsent)⟩

/-! ## 3. Reads -/

end StressWire

/-! ## 4. The end of the test -/

/-- A call with a packet that is none of a file transfer does not end the client, where its stress
    test goes on. -/
theorem ClientEnd.exists_handle {c : ClientEnd} {buffer : List UInt8}
    (hfile : isFileTransferPacket (packetId buffer) = false) (env : CallEnv)
    (hr : c.stressTest.receive (serverPacketOf buffer) ≠ none) :
    ∃ r, c.handle buffer env = some r := by
  have hsome : c.onRecvPacket buffer env.files ≠ none := by
    unfold serverPacketOf at hr
    unfold onRecvPacket
    dsimp only
    by_cases hchat : packetId buffer = pktSChat
    · rw [if_pos hchat]
      exact Option.some_ne_none _
    rw [if_neg hchat]
    by_cases hstart : packetId buffer = pktSStressStart
    · rw [if_pos hstart] at hr ⊢
      exact fun h => hr (Option.map_eq_none_iff.mp h)
    rw [if_neg hstart] at hr ⊢
    by_cases hdata : packetId buffer = pktSStressData
    · rw [if_pos hdata] at hr ⊢
      split
      · exact Option.some_ne_none _
      · exact fun h => hr (Option.map_eq_none_iff.mp h)
    rw [if_neg hdata] at hr ⊢
    by_cases hresult : packetId buffer = pktSStressResult
    · rw [if_pos hresult] at hr ⊢
      exact fun h => hr (Option.map_eq_none_iff.mp h)
    rw [if_neg hresult, hfile, if_neg Bool.false_ne_true]
    exact Option.some_ne_none _
  obtain ⟨r, hr⟩ := Option.ne_none_iff_exists'.mp hsome
  unfold handle
  dsimp only
  rw [hr, hfile]
  exact ⟨_, rfl⟩

namespace StressTest

/-- In no phase of a test does a packet end the client. -/
theorem Phase.client_ne_none {d : StressTestStartData} {t : StressTest} (h : Phase d t)
    {q : ServerPacket} {rest : List ServerPacket}
    (ht : t.toClient = q :: rest) : t.client.onRecvPacket q ≠ none := by
  cases h with
  | requested c g hc hg => nomatch ht
  | confirmed c g hc hg =>
      cases ht
      exact Option.some_ne_none _
  | running c g a hc hg hr hra ha =>
      dsimp only at ht ⊢
      cases q with
      | stressStart => exact Option.some_ne_none _
      | stressData n =>
          obtain ⟨p, hp⟩ := StressClient.onRecvPacket_echo hc.active (hc.config.symm ▸ hr) n
          rw [hp]
          exact Option.some_ne_none _
      | stressResult result => exact Option.some_ne_none _
  | ended c g hc hg => nomatch ht
  | resulted c g hc hg =>
      cases ht
      exact Option.some_ne_none _
  | finished c g hc hidle hg => nomatch ht

/-- The phases of a test without a further request. -/
theorem Phase.of_reach {d : StressTestStartData} {t t' : StressTest} (hN : 1 ≤ d.messageCount)
    (h : Phase d t) (hr : Reach StressTest.next (Requests False) t t') : Phase d t' := by
  refine hr.invariant h fun _ _ l ht hok hs => (ht.step hN (l := l) ?_ hs).1
  cases l with
  | request => exact hok
  | _ => trivial

end StressTest

/-- The calls of a read do not end the client, where the packets are those of the test. -/
theorem ClientEnd.exists_handleAll {d : StressTestStartData} (hN : 1 ≤ d.messageCount) :
    ∀ {calls : List RecvCall} {c : ClientEnd} {t : StressTest} {rest : List ServerPacket}
      (env : Nat → CallEnv), (∀ c ∈ calls, c.Framed) → (∀ c ∈ calls, FromServer c.packet) →
      StressTest.Phase d t → t.client = c.stressTest →
      t.toClient = (calls.map RecvCall.packet).filterMap serverPacketOf ++ rest →
      ∃ r, handleAll ClientEnd.handle c env calls = some r
  | [], _, _, _, _, _, _, _, _, _ => ⟨_, rfl⟩
  | call :: calls, c, t, rest, env, hframed, hpackets, hphase, hc, ht => by
      obtain ⟨hcall, hframed⟩ := List.forall_mem_cons.mp hframed
      obtain ⟨hpacket, hpackets⟩ := List.forall_mem_cons.mp hpackets
      have hfile := hpacket.noFile
      rw [GameSession.packetId_packet (hcall.length_packet ▸ hpacket.fits.header)] at hfile
      rw [List.map_cons, filterMap_cons_toList, List.append_assoc] at ht
      -- the test takes the packet, so the call does not end the client
      have hreceive : c.stressTest.receive (serverPacketOf call.packet) ≠ none := by
        cases hq : serverPacketOf call.packet with
        | none => exact Option.some_ne_none _
        | some q =>
            rw [hq] at ht
            rw [← hc]
            exact hphase.client_ne_none ht
      rw [serverPacketOf_packet hcall hpacket.fits] at hreceive
      obtain ⟨r, hr⟩ := exists_handle hfile (env 0) hreceive
      obtain ⟨hstress, -⟩ := handle_spec False hcall hpacket.fits hr
      rw [← hc] at hstress
      have hreach := StressTest.reach_client_receive False ht hstress
      obtain ⟨r', hr'⟩ := exists_handleAll hN (fun n => env (n + 1)) hframed hpackets
        (hphase.of_reach hN hreach) rfl rfl
      rw [handleAll, hr, Option.bind_some, hr']
      exact ⟨_, rfl⟩

namespace StressWire

/-- **A test over the streams**: what either side has sent of it is a first part of the test's. -/
structure Agrees (d : StressTestStartData) (s : StressWire) : Prop where
  client : s.clientSent.filterMap clientPacketOf <+: clientScript d
  server : s.serverSent.filterMap serverPacketOf <+: serverScript d
  /-- no read ends a process -/
  toServer : ∀ n env, 1 ≤ n → n ≤ s.toServer.onWay.length → (n : Int) ≤ Session.bufferSize →
    ∃ s', s.next (.toServer n env) = some s' ∧ s'.toServer.onWay = s.toServer.onWay.drop n
  toClient : ∀ n env, 1 ≤ n → n ≤ s.toClient.onWay.length → (n : Int) ≤ Session.bufferSize →
    ∃ s', s.next (.toClient n env) = some s' ∧ s'.toClient.onWay = s.toClient.onWay.drop n
  /-- with nothing on the way and no timer pending, all of the test was sent and both are idle -/
  ended : s.toServer.onWay = [] → s.toClient.onWay = [] →
    s.client.stressTest.waiting = false → s.client.stressTest.due = 0 →
    s.clientSent.filterMap clientPacketOf = clientScript d ∧
      s.serverSent.filterMap serverPacketOf = serverScript d ∧
      s.client.stressTest.stressTestActive = false ∧ s.server.stressTest.stressTestActive = false

/-- **A phase of the test over the streams.** -/
theorem agrees_of_phase {d : StressTestStartData} {s : StressWire} {t : StressTest}
    (hN : 1 ≤ d.messageCount) (h : Carries False s t) (hphase : StressTest.Phase d t) :
    Agrees d s := by
  have hagrees := hphase.agrees
  obtain ⟨later, hH, ht, hfits⟩ := h.toServer
  obtain ⟨later', hH', ht', hfits'⟩ := h.toClient
  refine ⟨h.clientSent ▸ hagrees.client, h.serverSent ▸ hagrees.server, ?_, ?_, ?_⟩
  · intro n env h1 hle hsize
    obtain ⟨s', hs', hway, -⟩ := h.exists_toServer env h1 hle hsize
    exact ⟨s', hs', hway⟩
  · intro n env h1 hle hsize
    obtain ⟨r, calls, ps, later₁, hread, rfl, hpackets, hframed, -, -⟩ :=
      hH'.read (hH'.readFits h1 hle hsize)
    rw [List.filterMap_append, ← hpackets] at ht'
    obtain ⟨r', hr'⟩ := ClientEnd.exists_handleAll hN env hframed
      (fun c hc => hfits' _ (List.mem_append_left _ (hpackets ▸ List.mem_map_of_mem hc)))
      hphase h.client ht'
    refine ⟨{ s with toClient := ⟨s.toClient.onWay.drop n, r⟩ }.fromClient r'.1 r'.2, ?_, rfl⟩
    rw [next, hread, Option.bind_some]
    dsimp only
    rw [hr']
    rfl
  · intro hserver hclient hwaiting hdue
    obtain ⟨rfl, -⟩ := hH.nil_of_empty hserver
    obtain ⟨rfl, -⟩ := hH'.nil_of_empty hclient
    have hover := hphase.over fun l hl => by
      cases l with
      | request => exact hl.elim
      | toServer => rw [StressTest.next, ht]; rfl
      | toClient => rw [StressTest.next, ht']; rfl
      | expire =>
          rw [StressTest.next, h.client, StressClient.expire, hwaiting]
          rfl
      | timer =>
          rw [StressTest.next, h.client, StressClient.onTimer, if_pos hdue]
          rfl
    exact ⟨h.clientSent ▸ hover.client, h.serverSent ▸ hover.server, h.client ▸ hover.idle.1,
      h.server ▸ hover.idle.2⟩

/-- **A stress test over the streams.** From idle sessions just connected and without a further
    request, however the streams are cut into reads, whatever chat goes between and in whatever
    order things happen: what is sent of the test is a first part of it, no read ends a process, and
    with nothing on the way and no timer pending the server has received every message and said so,
    and both sides are idle. -/
theorem stress_wire_agreement (client : ClientEnd) (server : GameSession) (d : StressTestStartData)
    (env : SendEnv) (hc : client.stressTest.stressTestActive = false)
    (hg : server.stressTest.stressTestActive = false) (hN : 1 ≤ d.messageCount)
    (hsize : d.messageSize ≤ 4000) :
    ∃ s₀, (start client server).next (.request d env) = some s₀ ∧
      ∀ s, Reach next (Sends False False) s₀ s → Agrees d s := by
  refine ⟨_, rfl, fun s hr => ?_⟩
  have hrequest : client.stressTest.requestStressTest d = (_, [.stressStart d]) :=
    (if_neg (by rw [hc]; decide)).trans (if_neg (by omega))
  have hcarries : Carries False ((start client server).fromStress env
      (client.stressTest.requestStressTest d)) _ :=
    (carries_start False client server).fromStress env
      (StressClient.inRange_requestStressTest _ d)
  have hphase : StressTest.Phase d
      ((StressTest.start client.stressTest server.stressTest).fromClient
      (client.stressTest.requestStressTest d).1 (client.stressTest.requestStressTest d).2) := by
    rw [hrequest]
    exact .requested _ server.stressTest ⟨hc, rfl, rfl, rfl⟩ hg
  obtain ⟨t, ht, h⟩ := hr.simulate hcarries fun _ _ _ _ h hok hs => h.step hok hs
  exact agrees_of_phase hN h (hphase.of_reach hN ht)

/-- The request of a test of one message, which arrives in two reads. -/
theorem stress_wire_agreement_two_reads :
    ∃ s₀ s₁ s₂, (start idleClient .new).next (.request StressTest.oneMessage zeros) = some s₀ ∧
      s₀.next (.toServer 3 calm) = some s₁ ∧ s₁.next (.toServer 13 calm) = some s₂ ∧
      s₂.toServer.onWay = [] ∧ Agrees StressTest.oneMessage s₂ := by
  obtain ⟨s₀, hs₀, hagrees⟩ := stress_wire_agreement idleClient .new StressTest.oneMessage zeros
    rfl rfl (by decide) (by decide)
  obtain ⟨s, hs, hlen, -⟩ := exists_requested
  obtain rfl : s₀ = s := Option.some.inj (hs₀.symm.trans hs)
  obtain ⟨s₁, h₁, hway₁⟩ := (hagrees _ .start).toServer 3 calm (by decide) (by omega) (by decide)
  have hr₁ : Reach next (Sends False False) s₀ s₁ :=
    .step _ _ (.toServer 3 calm) .start trivial h₁
  have hlen₁ : s₁.toServer.onWay.length = 13 := by
    rw [hway₁, List.length_drop, hlen]
  obtain ⟨s₂, h₂, hway₂⟩ := (hagrees _ hr₁).toServer 13 calm (by decide) (by omega) (by decide)
  refine ⟨s₀, s₁, s₂, hs₀, h₁, h₂, ?_, hagrees _ (.step _ _ (.toServer 13 calm) hr₁ trivial h₂)⟩
  rw [hway₂, List.drop_of_length_le (Nat.le_of_eq hlen₁)]

end StressWire

end ServerCore
