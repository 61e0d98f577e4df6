/-
  File:      ServerCore/ChatWire.lean
  Subject:   The chat over the byte streams: what a ClientSession says, by SendChatPacket and by the
             callback of its transfers, and what the GameSession shows of it and answers.

  All that `FileWire` does goes on beside it, any number of transfers and stress tests. A step says
  what is in `spoken` and shows what is in `shownIn`.

  * `transferPacket_of_mem`: every packet of a transfer is one that the server can read.
  * `ChatInv.step`: what was shown and what is on the way are together what was said, in its order,
    and each message shown was answered once.
-/
import ServerCore.FileWire

namespace ServerCore

open Seg LittleEndian Layout Trans

/-! ## 1. Texts -/

/-- What a client says: a line of its user, or that a file was sent. -/
inductive Said where
  | line (msg : List UInt8)
  | notice (filePath : Path)
  deriving DecidableEq, Repr

/-- The text of its packet. -/
def Said.text : Said → List UInt8
  | .line msg => cString msg
  | .notice filePath =>
      cString (Path.ofString "File transfer completed: " ++ Path.filename filePath)

/-- What the completion callback of a `ClientSession` says. -/
def notices (events : List TransferEvent) : List Said :=
  events.filterMap fun
    | .complete _ true filePath => some (.notice filePath)
    | _ => none

/-- The text that the server shows of a packet: "Client Says: " -/
def chatText (p : List UInt8) : Option (List UInt8) :=
  if packetId p = pktCChat then some (cString (p.drop 4)) else none

/-- The packet answers a chat message. -/
def isAnswer (p : List UInt8) : Bool :=
  packetId p = pktSChat && cString (p.drop 4) = Path.ofString "Server received your message!"

theorem chatText_chatPacket {mem : Memory} {msg p : List UInt8}
    (h : chatPacket mem pktCChat msg = some p) : chatText p = some (cString msg) := by
  obtain ⟨-, hid, -⟩ := chatPacket_spec (by decide) h
  rw [chatText, if_pos hid, cString_chatPacket (by decide) h]

/-- A packet of the stress test has no text. -/
theorem chatText_of_clientPacketOf {p : List UInt8} {q : ClientPacket}
    (h : clientPacketOf p = some q) : chatText p = none := by
  refine if_neg fun hid => ?_
  rw [clientPacketOf, hid] at h
  cases h

/-- Nor has one of a file transfer. -/
theorem chatText_of_file {p : List UInt8} (h : isFileTransferPacket (packetId p) = true) :
    chatText p = none := by
  refine if_neg fun hid => ?_
  rw [hid] at h
  cases h

theorem clientPacketOf_of_file {p : List UInt8} (h : isFileTransferPacket (packetId p) = true) :
    clientPacketOf p = none := by
  cases hq : clientPacketOf p with
  | none => rfl
  | some q =>
      rw [noFile_of_clientPacketOf hq] at h
      cases h

/-- The server shows the text of the packet, whatever stands behind it in the buffer. -/
theorem chatText_packet {c : RecvCall} (hc : c.Framed)
    (hfits : GameSession.PacketFits true c.packet) : chatText c.packet = chatText c.buffer := by
  have hid : packetId c.packet = packetId c.buffer :=
    GameSession.packetId_packet (hc.length_packet ▸ hfits.header)
  unfold chatText
  rw [hid]
  split
  · rename_i hchat
    have hnul := hfits.chat (hid.trans hchat)
    have hdrop : c.packet.drop 4 = (c.buffer.drop 4).take (c.len - 4) := List.drop_take
    rw [hdrop] at hnul ⊢
    exact congrArg some (takeWhile_take ⟨0, hnul, rfl⟩)
  · rfl

/-! ## 2. The packets of a transfer -/

/-- The request for any file. -/
theorem fromClient_createFileRequestPacket {mem : Memory} {filePath : Path}
    {fileSize chunkSize : Nat} {p : List UInt8}
    (h : createFileRequestPacket mem filePath fileSize chunkSize = some p) :
    FromClient True p ∧ packetId p = fileTransferRequest := by
  have hlen : p.length = 280 := length_createFileRequestPacket h
  unfold createFileRequestPacket at h
  dsimp only at h
  split at h
  case isFalse => cases h
  case isTrue hname =>
  have hbehind := behindHeader_requestFields hname fileSize (chunksTotal fileSize chunkSize)
  obtain rfl : packetOf mem sizeofFileHeader fileTransferRequest
      (requestFields (Path.filename filePath) fileSize (chunksTotal fileSize chunkSize)) = p :=
    Option.some.inj h
  generalize hp : packetOf mem sizeofFileHeader fileTransferRequest _ = p at hlen
  have hid : packetId p = fileTransferRequest :=
    hp ▸ packetId_packetOf hbehind (by decide) (by decide)
  have hnul : 0 ∈ p.drop 4 := by
    have hslice := slice_storeAll (hbehind.disjoint_packet mem fileTransferRequest (by decide))
      ⟨4 + (Path.filename filePath).length, [0]⟩ (by simp [requestFields])
    refine List.mem_of_mem_drop (i := (Path.filename filePath).length) ?_
    rw [List.drop_drop]
    refine List.mem_of_mem_take (i := 1) ?_
    rw [← hp, packetOf]
    unfold slice at hslice
    rw [List.length_singleton] at hslice
    rw [hslice]
    exact List.mem_singleton_self 0
  have hne : ∀ id, id ≠ fileTransferRequest → packetId p ≠ id := fun id hne e =>
    hne (e.symm.trans hid)
  refine ⟨⟨hp ▸ wellFormed_packetOf hbehind (by decide) (by decide), ⟨by omega, ?_, ?_, ?_,
    fun _ => ⟨by omega, hnul⟩, ?_⟩, fun _ => trivial⟩, hid⟩
  · exact fun e => absurd e (hne _ (by decide))
  · exact fun e => absurd e (hne _ (by decide))
  · exact fun e => absurd e (hne _ (by decide))
  · exact fun e => absurd e (hne _ (by decide))

/-- A chunk that is as long as it says, and no longer than SendNextChunk makes them. -/
theorem fromClient_createFileChunkPacket {mem : Memory} {data p : List UInt8} {size chunkId : Nat}
    {isLast allocFails : Bool} (hdata : data.length = size)
    (hmax : size ≤ FileTransferContext.maxChunkSize)
    (h : createFileChunkPacket mem data size chunkId isLast allocFails = some p) :
    FromClient True p ∧ packetId p = fileDataChunk := by
  subst hdata
  cases allocFails with
  | true => rw [createFileChunkPacket_of_allocFails] at h; cases h
  | false =>
  obtain ⟨p', hp', hlen, hread⟩ := read_createFileChunkPacket mem chunkId isLast hmax
  obtain rfl : p' = p := Option.some.inj (hp'.symm.trans h)
  have hid : packetId p' = fileDataChunk := congrArg FileChunk.id hread
  have hsize : PacketHeader.size p' = sizeofFileChunk + data.length := congrArg FileChunk.size hread
  have h16 : sizeofFileChunk = 16 := rfl
  have hne : ∀ id, id ≠ fileDataChunk → packetId p' ≠ id := fun id hne e => hne (e.symm.trans hid)
  refine ⟨⟨⟨by omega, hsize.trans hlen.symm⟩, ⟨by omega, ?_, ?_, ?_, ?_, fun _ => by omega⟩,
    fun _ => trivial⟩, hid⟩
  · exact fun e => absurd e (hne _ (by decide))
  · exact fun e => absurd e (hne _ (by decide))
  · exact fun e => absurd e (hne _ (by decide))
  · exact fun e => absurd e (hne _ (by decide))

/-- A packet of a transfer that the server can read. -/
def TransferPacket (p : List UInt8) : Prop :=
  FromClient True p ∧ isFileTransferPacket (packetId p) = true

/-- The slice that SendNextChunk sends. -/
theorem transferPacket_sendSlice {m : FileTransferManager} {key id : Nat}
    {context : FileTransferContext} {content : List UInt8} {mem : Memory} {faults : SendFaults}
    {p : List UInt8} (h : .send p ∈ (m.sendSlice key context content id mem faults).2.2) :
    TransferPacket p := by
  -- the buffer is as long as the slice that is asked for
  have hlen : (grow 0 (slice content context.bytesSent context.currentChunkSize)
      context.currentChunkSize).length = context.currentChunkSize := by
    rw [length_grow, length_slice]
    omega
  unfold FileTransferManager.sendSlice at h
  dsimp only at h
  split at h
  · cases h
  split at h
  · cases h
  · rename_i packet hpacket
    obtain ⟨hclient, hid⟩ := fromClient_createFileChunkPacket hlen (Nat.min_le_right _ _) hpacket
    have htransfer : TransferPacket packet := ⟨hclient, by rw [hid]; rfl⟩
    have hmem : TransferEvent.send p = .send packet := by
      split at h
      · rcases List.mem_cons.mp h with e | h
        · exact e
        · cases List.mem_singleton.mp h
      · rcases List.mem_cons.mp h with e | h
        · exact e
        · cases List.mem_singleton.mp h
    exact TransferEvent.send.inj hmem ▸ htransfer

/-- What SendNextChunk sends. -/
theorem transferPacket_sendNextChunk {fs : FileSystem} {m : FileTransferManager} {id : Nat}
    {mem : Memory} {faults : SendFaults} {p : List UInt8}
    (h : .send p ∈ (m.sendNextChunk fs id mem faults).2.2) : TransferPacket p := by
  unfold FileTransferManager.sendNextChunk at h
  split at h
  · cases h
  · dsimp only at h
    split at h
    · cases h
    split at h
    · cases h
    split at h
    · cases h
    split at h
    · cases List.mem_singleton.mp h
    · exact transferPacket_sendSlice h

/-- **What the transfers of a client send**, of any files and in any state. -/
theorem transferPacket_of_mem {fs : FileSystem} {s : ClientSession} {l : SessionStep}
    {p : List UInt8} (h : .send p ∈ s.transferEvents fs l) : TransferPacket p := by
  unfold ClientSession.transferEvents at h
  cases l with
  | sendFile filePath mem sizeFails openFails =>
      dsimp only at h
      split at h
      · cases h
      · cases hstart : s.manager.startFileSend fs filePath defaultChunkSize mem openFails with
        | none =>
            rw [hstart] at h
            cases h
        | some r =>
            obtain ⟨result, m, events⟩ := r
            rw [hstart] at h
            rcases FileTransferManager.startFileSend_cases hstart with ⟨-, -, rfl⟩ |
              ⟨content, packet, -, -, -, hpacket, rfl, -⟩
            · cases h
            · obtain ⟨hclient, hid⟩ := fromClient_createFileRequestPacket hpacket
              obtain rfl : p = packet := TransferEvent.send.inj (List.mem_singleton.mp h)
              exact ⟨hclient, by rw [hid]; rfl⟩
  | firstChunk id mem faults =>
      unfold ClientSession.events at h
      dsimp only at h
      split at h
      · exact transferPacket_sendNextChunk h
      · cases h
  | thread id mem faults =>
      unfold ClientSession.events at h
      dsimp only at h
      split at h
      · exact transferPacket_sendNextChunk h
      · cases h

/-! ## 3. A call -/

/-- The packets of the client that go out on the events of its transfers: the texts are those of the
    notices. -/
theorem chatText_sentOn {mem : Memory} : ∀ {events : List TransferEvent} {ps : List (List UInt8)},
    (∀ p, .send p ∈ events → chatText p = none) →
    sentOn (fun success filePath =>
      ClientSession.transferComplete mem success filePath false) events = some ps →
    ps.filterMap chatText = (notices events).map Said.text
  | [], _, _, h => by
      cases h
      rfl
  | .send p :: events, _, hsend, h => by
      obtain ⟨ps, hps, rfl⟩ := Option.map_eq_some_iff.mp h
      rw [List.filterMap_cons_none (hsend p (List.mem_cons_self ..)),
        chatText_sentOn (fun q hq => hsend q (List.mem_cons_of_mem _ hq)) hps]
      rfl
  | .complete _ success filePath :: events, _, hsend, h => by
      obtain ⟨ps, hps, h⟩ := Option.bind_eq_some_iff.mp h
      obtain ⟨qs, hqs, rfl⟩ := Option.map_eq_some_iff.mp h
      rw [List.filterMap_append,
        chatText_sentOn (fun q hq => hsend q (List.mem_cons_of_mem _ hq)) hqs]
      cases success with
      | false =>
          cases hps
          rfl
      | true =>
          obtain ⟨p, hp, rfl⟩ := Option.map_eq_some_iff.mp hps
          rw [List.filterMap_cons_some (chatText_chatPacket hp)]
          rfl
  | .schedule _ :: events, _, hsend, h => by
      have hrest := chatText_sentOn (fun q hq => hsend q (List.mem_cons_of_mem _ hq)) h
      rw [hrest]
      rfl

/-- What the stress test of a client sends has no text. -/
theorem StressClient.chatText_bytesOf (c : StressClient) (env : SendEnv) {ps : List ClientPacket}
    (h : ∀ p ∈ ps, p.InRange) : (ps.map (c.bytesOf env)).filterMap chatText = [] := by
  rw [List.filterMap_eq_nil_iff]
  refine List.forall_mem_map.mpr fun p hp => ?_
  exact chatText_of_clientPacketOf (clientPacketOf_bytesOf c env (h p hp))

/-- A call of the client with a packet of the server says nothing. -/
theorem ClientEnd.chatText_handle {c c' : ClientEnd} {call : RecvCall} {env : CallEnv}
    {ps : List (List UInt8)} (hcall : call.Framed) (hpacket : FromServer call.packet)
    (h : c.handle call.buffer env = some (c', ps)) : ps.filterMap chatText = [] := by
  have hfile := hpacket.noFile
  rw [GameSession.packetId_packet (hcall.length_packet ▸ hpacket.fits.header)] at hfile
  unfold handle at h
  dsimp only at h
  obtain ⟨r, hr, h⟩ := Option.bind_eq_some_iff.mp h
  obtain ⟨ns, hns, e⟩ := Option.map_eq_some_iff.mp h
  obtain ⟨rfl, rfl⟩ := Prod.mk.inj e
  rw [hfile, if_neg Bool.false_ne_true] at hns
  obtain rfl : [] = ns := Option.some.inj hns
  rw [List.append_nil]
  exact r.1.stressTest.chatText_bytesOf env.toSendEnv
    (StressClient.inRange_receive (onRecvPacket_receive hr))

theorem ClientEnd.chatText_handleAll : ∀ {calls : List RecvCall} {c c' : ClientEnd}
    {env : Nat → CallEnv} {ps : List (List UInt8)},
    (∀ c ∈ calls, c.Framed) → (∀ c ∈ calls, FromServer c.packet) →
    handleAll ClientEnd.handle c env calls = some (c', ps) → ps.filterMap chatText = []
  | [], _, _, _, _, _, _, h => by
      cases h
      rfl
  | call :: calls, c, c', env, ps, hframed, hpackets, h => by
      obtain ⟨hcall, hframed⟩ := List.forall_mem_cons.mp hframed
      obtain ⟨hpacket, hpackets⟩ := List.forall_mem_cons.mp hpackets
      obtain ⟨⟨c₁, ps₁⟩, h₁, h⟩ := Option.bind_eq_some_iff.mp h
      obtain ⟨⟨c₂, ps₂⟩, h₂, e⟩ := Option.map_eq_some_iff.mp h
      obtain ⟨rfl, rfl⟩ := Prod.mk.inj e
      rw [List.filterMap_append, ClientEnd.chatText_handle hcall hpacket h₁,
        chatText_handleAll hframed hpackets h₂]
      rfl

/-- The answers among the packets. -/
def answers (ps : List (List UInt8)) : Nat := (ps.filter isAnswer).length

theorem answers_append (ps qs : List (List UInt8)) :
    answers (ps ++ qs) = answers ps + answers qs := by
  unfold answers
  rw [List.filter_append, List.length_append]

theorem answers_eq_zero {ps : List (List UInt8)} (h : ∀ p ∈ ps, isAnswer p = false) :
    answers ps = 0 := by
  unfold answers
  rw [List.filter_eq_nil_iff.mpr fun p hp => Bool.eq_false_iff.mp (h p hp)]
  rfl

/-- The report of a file is no answer. -/
theorem isAnswer_report {mem : Memory} {name p : List UInt8}
    (h : chatPacket mem pktSChat (Path.ofString "Server received file: " ++ name) = some p) :
    isAnswer p = false := by
  have htext := cString_chatPacket (by decide) h
  rw [ofString_serverReceived, cString_append (by decide)] at htext
  unfold isAnswer
  rw [htext, Bool.and_eq_false_iff]
  refine .inr (decide_eq_false fun e => ?_)
  rw [ofString_answer] at e
  have h16 := congrArg (fun text => text[16]?) e
  cases h16

/-- **A call of the server** answers a chat message once, and nothing else. -/
theorem GameSession.answers_handle {g g' : GameSession} {c : RecvCall} {env : CallEnv}
    {ps : List (List UInt8)} (hc : c.Framed) (hfits : PacketFits true c.packet)
    (h : g.handle c.buffer env = some (g', ps)) :
    answers ps = (chatText c.packet).toList.length := by
  rw [chatText_packet hc hfits]
  obtain ⟨-, hreplies⟩ := g.onRecvPacket_receive c.buffer env
  have hanswers := answers_receive g.stressTest hc hfits
  unfold handle at h
  dsimp only at h
  obtain ⟨replies, hbytes, h⟩ := Option.bind_eq_some_iff.mp h
  obtain ⟨ns, hns, e⟩ := Option.map_eq_some_iff.mp h
  obtain ⟨rfl, rfl⟩ := Prod.mk.inj e
  have hreports : answers ns = 0 := by
    refine answers_eq_zero (forall_mem_sentOn (fun success filePath qs hqs => ?_) _
      (fun p hp => absurd hp (send_not_mem_events _ _ _ p)) hns)
    unfold GameSession.transferComplete at hqs
    split at hqs
    · obtain ⟨q, hq, rfl⟩ := Option.map_eq_some_iff.mp hqs
      exact List.forall_mem_singleton.mpr (isAnswer_report hq)
    · cases hqs
      exact List.forall_mem_nil _
  rw [answers_append, hreports, Nat.add_zero]
  rw [hreplies] at hbytes
  unfold chatText
  split at hbytes
  · rename_i hid
    rw [if_pos hid]
    rw [List.mapM_cons, List.mapM_nil] at hbytes
    obtain ⟨p, hp, e⟩ := Option.bind_eq_some_iff.mp hbytes
    obtain rfl : [p] = replies := Option.some.inj e
    obtain ⟨-, hpid, -⟩ := chatPacket_spec (by decide) hp
    have htext := cString_chatPacket (by decide) hp
    have hanswer : isAnswer p = true := by
      refine Bool.and_eq_true_iff.mpr ⟨decide_eq_true hpid, decide_eq_true (htext.trans ?_)⟩
      rw [ofString_answer]
      exact cString_of_not_mem (by decide)
    unfold answers
    rw [List.filter_cons_of_pos hanswer]
    rfl
  · rename_i hid
    rw [if_neg hid]
    rw [mapM_replyBytes] at hbytes
    obtain rfl := Option.some.inj hbytes
    refine answers_eq_zero (List.forall_mem_map.mpr fun p hp => ?_)
    have hq := serverPacketOf_bytesOf env.mem env.floats hc (hanswers p hp)
    refine Bool.and_eq_false_iff.mpr (.inl (decide_eq_false fun hpid => ?_))
    rw [serverPacketOf, hpid] at hq
    cases hq

theorem GameSession.answers_handleAll : ∀ {calls : List RecvCall} {g g' : GameSession}
    {env : Nat → CallEnv} {ps : List (List UInt8)},
    (∀ c ∈ calls, c.Framed) → (∀ c ∈ calls, PacketFits true c.packet) →
    handleAll GameSession.handle g env calls = some (g', ps) →
    answers ps = (calls.filterMap fun c => chatText c.buffer).length
  | [], _, _, _, _, _, _, h => by
      cases h
      rfl
  | c :: calls, g, g', env, ps, hframed, hfits, h => by
      obtain ⟨hc, hframed⟩ := List.forall_mem_cons.mp hframed
      obtain ⟨hfit, hfits⟩ := List.forall_mem_cons.mp hfits
      obtain ⟨⟨g₁, ps₁⟩, h₁, h⟩ := Option.bind_eq_some_iff.mp h
      obtain ⟨⟨g₂, ps₂⟩, h₂, e⟩ := Option.map_eq_some_iff.mp h
      obtain ⟨rfl, rfl⟩ := Prod.mk.inj e
      rw [answers_append, GameSession.answers_handle hc hfit h₁,
        answers_handleAll hframed hfits h₂, chatText_packet hc hfit, filterMap_cons_toList,
        List.length_append]

/-! ## 4. A step -/

namespace FileWire

/-- What the client says in a step, beside what it is told to send. -/
def spoken (s : FileWire) : FileStep → List Said
  | .file l _ => notices (s.sending.transferEvents s.wire.client.files.fs l)
  | _ => []

/-- The texts that go on the way in a step. -/
def spokenTexts (s : FileWire) : FileStep → List (List UInt8)
  | .wire (.send packet) => (chatText packet).toList
  | l => (s.spoken l).map Said.text

/-- The texts that the server shows in a step. -/
def shownIn (s : FileWire) : FileStep → List (List UInt8)
  | .wire (.toServer n _) =>
      match s.wire.toServer.read n with
      | some (_, calls) => calls.filterMap fun c => chatText c.buffer
      | none => []
  | _ => []

/-- What other code sends is none of the stress test, and can be read. -/
def SendsAny : FileStep → Prop
  | .wire (.send packet) => FromClient True packet ∧ clientPacketOf packet = none
  | _ => True

/-- **The chat is carried**: what was shown and what is on the way are together what was said, and
    each message shown was answered. -/
structure ChatInv (t₀ : StressTest) (shown said : List (List UInt8)) (s : FileWire) : Prop where
  carries : ∃ t, Reach StressTest.next (StressTest.Requests True) t₀ t ∧ s.wire.Carries True t
  texts : ∃ later, s.wire.toServer.Holds [] later ∧ shown ++ later.filterMap chatText = said
  answered : answers s.wire.serverSent = shown.length

section Step

variable {t₀ : StressTest} {shown said : List (List UInt8)} {s s' : FileWire}

/-- Packets go on the way to the server, and it takes up none. -/
theorem texts_put {p : PacketPipe} (h : ∃ later, p.Holds [] later ∧
      shown ++ later.filterMap chatText = said) {ps : List (List UInt8)}
    (hps : ∀ q ∈ ps, WellFormedPacket q) {texts : List (List UInt8)}
    (htexts : ps.filterMap chatText = texts) : ∃ later, (p.put ps).Holds [] later ∧
      (shown ++ []) ++ later.filterMap chatText = said ++ texts := by
  obtain ⟨later, hH, rfl⟩ := h
  refine ⟨later ++ ps, hH.put hps, ?_⟩
  rw [List.append_nil, List.filterMap_append, htexts, List.append_assoc]

/-- The client goes on with its transfers. -/
theorem ChatInv.file (hI : s.ChatInv t₀ shown said) {l : SessionStep} {mem : Memory}
    (h : s.next (.file l mem) = some s') :
    s'.ChatInv t₀ (shown ++ s.shownIn (.file l mem)) (said ++ s.spokenTexts (.file l mem)) := by
  obtain ⟨⟨t, hreach, ht⟩, htexts, hanswered⟩ := hI
  obtain ⟨c, hc, h⟩ := Option.bind_eq_some_iff.mp h
  obtain ⟨ps, hps, rfl⟩ := Option.map_eq_some_iff.mp h
  have hsend : ∀ p, .send p ∈ s.sending.transferEvents s.wire.client.files.fs l →
      FromClient True p ∧ clientPacketOf p = none := fun p hp =>
    have htransfer := transferPacket_of_mem hp
    ⟨htransfer.1, clientPacketOf_of_file htransfer.2⟩
  have hfrom := fromClient_sentOn True hsend hps
  have htext := chatText_sentOn (fun p hp => chatText_of_file (transferPacket_of_mem hp).2) hps
  refine ⟨⟨t.fromClient t.client [], ?_, ?_⟩, ?_, ?_⟩
  · rw [StressTest.fromClient_nil]
    exact hreach
  · exact ht.fromClient (show t.client = (s.clientAt c).stressTest from ht.client)
      (fun p hp => (hfrom p hp).1) (List.filterMap_eq_nil_iff.mpr fun p hp => (hfrom p hp).2)
  · exact texts_put htexts (fun p hp => (hfrom p hp).1.wellFormed) htext
  · rw [show s.shownIn (.file l mem) = [] from rfl, List.append_nil]
    exact hanswered

/-- A read of the server. -/
theorem ChatInv.toServer (hI : s.ChatInv t₀ shown said) {n : Nat} {env : Nat → CallEnv}
    (h : s.next (.wire (.toServer n env)) = some s') :
    s'.ChatInv t₀ (shown ++ s.shownIn (.wire (.toServer n env))) (said ++ []) := by
  obtain ⟨⟨t, hreach, ht⟩, ⟨later, hH, hsaid⟩, hanswered⟩ := hI
  obtain ⟨w, hw, rfl⟩ := Option.map_eq_some_iff.mp h
  have hsends : StressWire.Sends True True s.wire (.toServer n env) := trivial
  obtain ⟨t', hmore, ht'⟩ := ht.step hsends hw
  obtain ⟨⟨pipe, calls⟩, hread, hw⟩ := Option.bind_eq_some_iff.mp hw
  obtain ⟨⟨server, ps⟩, hcalls, rfl⟩ := Option.map_eq_some_iff.mp hw
  obtain ⟨later₀, hH₀, -, hfrom⟩ := ht.toServer
  obtain rfl := hH₀.unique hH
  obtain ⟨later', rfl, hframed, -, hH'⟩ := hH.taken hread
  have hfits : ∀ c ∈ calls, GameSession.PacketFits true c.packet := fun c hc =>
    (hfrom _ (List.mem_append_left _ (List.mem_map_of_mem hc))).fits
  have hshown : s.shownIn (.wire (.toServer n env)) =
      calls.filterMap fun c => chatText c.buffer := by
    unfold shownIn
    dsimp only
    rw [hread]
  have htaken : (calls.map RecvCall.packet).filterMap chatText =
      calls.filterMap fun c => chatText c.buffer := by
    rw [List.filterMap_map]
    exact List.filterMap_congr fun c hc => chatText_packet (hframed c hc) (hfits c hc)
  refine ⟨⟨t', hreach.trans hmore, ht'⟩, ⟨later', hH', ?_⟩, ?_⟩
  · rw [hshown, ← htaken, List.append_nil, List.append_assoc, ← List.filterMap_append]
    exact hsaid
  · show answers (s.wire.serverSent ++ ps) = _
    rw [answers_append, hanswered, GameSession.answers_handleAll hframed hfits hcalls, hshown,
      List.length_append]

/-- Any other step of the streams: what goes on the way, and who sends it. -/
theorem put_of_next {t : StressTest} (ht : s.wire.Carries True t) {l : WireStep}
    (hok : SendsAny (.wire l)) (hl : ∀ n env, l ≠ .toServer n env) {w : StressWire}
    (h : s.wire.next l = some w) :
    (∃ ps, w.toServer = s.wire.toServer.put ps ∧ (∀ p ∈ ps, WellFormedPacket p) ∧
      ps.filterMap chatText = s.spokenTexts (.wire l)) ∧ w.serverSent = s.wire.serverSent := by
  have hstress : ∀ (r : StressClient × List ClientPacket) (env : SendEnv),
      (∀ p ∈ r.2, p.InRange) → (∀ p ∈ r.2.map (r.1.bytesOf env), WellFormedPacket p) ∧
        (r.2.map (r.1.bytesOf env)).filterMap chatText = [] := fun r env hr =>
    ⟨fun p hp => ((r.1.sent_spec True env hr).2 p hp).wellFormed, r.1.chatText_bytesOf env hr⟩
  cases l with
  | request d env =>
      cases h
      exact ⟨⟨_, rfl, hstress _ env (StressClient.inRange_requestStressTest _ d)⟩, rfl⟩
  | send packet =>
      cases h
      refine ⟨⟨[packet], rfl, List.forall_mem_singleton.mpr hok.1.wellFormed, ?_⟩, rfl⟩
      rw [filterMap_cons_toList]
      exact List.append_nil _
  | expire =>
      obtain ⟨c, hc, rfl⟩ := Option.map_eq_some_iff.mp h
      exact ⟨⟨[], s.wire.toServer.put_nil.symm, List.forall_mem_nil _, rfl⟩, rfl⟩
  | timer env =>
      obtain ⟨r, hr, rfl⟩ := Option.map_eq_some_iff.mp h
      exact ⟨⟨_, rfl, hstress r env (StressClient.inRange_onTimer hr)⟩, rfl⟩
  | toServer n env => exact absurd rfl (hl n env)
  | toClient n env =>
      obtain ⟨⟨pipe, calls⟩, hread, h⟩ := Option.bind_eq_some_iff.mp h
      obtain ⟨⟨client, ps⟩, hcalls, rfl⟩ := Option.map_eq_some_iff.mp h
      obtain ⟨later, hH, hlater, hfits⟩ := ht.toClient
      obtain ⟨later', rfl, hframed, -, -⟩ := hH.taken hread
      rw [List.filterMap_append] at hlater
      have hfrom : ∀ c ∈ calls, FromServer c.packet := fun c hc =>
        hfits _ (List.mem_append_left _ (List.mem_map_of_mem hc))
      obtain ⟨-, hps⟩ := StressTest.reach_toClient True True hframed
        (fun c hc => (hfrom c hc).fits) hcalls ht.client hlater
      exact ⟨⟨ps, rfl, fun p hp => (hps p hp).wellFormed,
        ClientEnd.chatText_handleAll hframed hfrom hcalls⟩, rfl⟩

/-- **One step.** -/
theorem ChatInv.step (hI : s.ChatInv t₀ shown said) {l : FileStep} (hok : SendsAny l)
    (h : s.next l = some s') :
    s'.ChatInv t₀ (shown ++ s.shownIn l) (said ++ s.spokenTexts l) := by
  cases l with
  | file l mem => exact hI.file h
  | elsewhere fs =>
      cases h
      obtain ⟨⟨t, hreach, ht⟩, htexts, hanswered⟩ := hI
      refine ⟨⟨t, hreach, ht.client, ht.server, ht.toServer, ht.toClient, ht.clientSent,
        ht.serverSent⟩, ?_, ?_⟩
      · rw [show s.shownIn (.elsewhere fs) = [] from rfl, List.append_nil,
          show s.spokenTexts (.elsewhere fs) = [] from rfl, List.append_nil]
        exact htexts
      · rw [show s.shownIn (.elsewhere fs) = [] from rfl, List.append_nil]
        exact hanswered
  | wire l =>
      by_cases hl : ∃ n env, l = .toServer n env
      · obtain ⟨n, env, rfl⟩ := hl
        exact hI.toServer h
      · obtain ⟨⟨t, hreach, ht⟩, htexts, hanswered⟩ := hI
        obtain ⟨w, hw, rfl⟩ := Option.map_eq_some_iff.mp h
        have hsends : StressWire.Sends True True s.wire l := by
          cases l with
          | send packet => exact hok
          | _ => trivial
        obtain ⟨t', hmore, ht'⟩ := ht.step hsends hw
        obtain ⟨⟨ps, hput, hps, htext⟩, hsent⟩ :=
          put_of_next ht hok (fun n env e => hl ⟨n, env, e⟩) hw
        have hshown : s.shownIn (.wire l) = [] := by
          cases l with
          | toServer n env => exact absurd ⟨n, env, rfl⟩ hl
          | _ => rfl
        rw [hshown]
        refine ⟨⟨t', hreach.trans hmore, ht'⟩, ?_, ?_⟩
        · show ∃ later, w.toServer.Holds [] later ∧ _
          rw [hput]
          exact texts_put htexts hps htext
        · show answers w.serverSent = _
          rw [hsent, List.append_nil]
          exact hanswered

end Step

end FileWire

end ServerCore
