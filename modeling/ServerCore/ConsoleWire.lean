/-
  File:      ServerCore/ConsoleWire.lean
  Subject:   The client with its user: the loop of ProcessUserCommands on the main thread, beside
             all that FileWire does on the other threads and at the server.

  A pass of the loop takes a line and does what it asks for. SendFile first starts the transfer and
  then calls SendNextChunk, and other threads may come in between: the call is the second half of
  its pass, and the next pass comes after it. Until the process ends the other threads go on, also
  behind a word for quitting.

  * `ConsoleInv.round`, `ConsoleInv.call`, `ConsoleInv.beside`: one step.
  * `console_chat`: on every run the server shows what was said, in its order; of the lines these
    are the chat messages typed; and a pass ends the process just where a line is too long, or its
    call of SendNextChunk completes a file whose name leaves the notice no room.
  * `first_file_ends_pass`: a short file with such a name does so, if it is the first that is sent.
-/
import ServerCore.ChatWire
import ServerCore.Console

namespace ServerCore

open Trans

/-! ## 1. The machine -/

/-- The client with its user, and the server. `rounds` counts the passes of the loop, `said` is all
    that the client has said, `shown` what the server has shown of it. -/
structure ConsoleWire where
  files : FileWire
  console : Console
  rounds : Nat
  quit : Bool
  said : List Said
  shown : List (List UInt8)

/-- What surrounds a pass: a send, and whether the file cannot be measured or opened. -/
structure RoundEnv where
  send : SendEnv
  sizeFails : Bool
  openFails : Bool

/-- What happens next: a pass of the loop, up to the call of SendNextChunk if it comes to one; this
    call; or anything beside them. -/
inductive ConsoleStep where
  | round (env : RoundEnv)
  | call (mem : Memory) (faults : SendFaults) (notice : Memory)
  | beside (l : FileStep)

namespace ConsoleWire

/-- The step is none that a command makes. -/
def isBeside : FileStep → Bool
  | .wire (.request _ _) => false
  | .wire (.send _) => false
  | .file (.sendFile _ _ _ _) _ => false
  | .file (.firstChunk _ _ _) _ => false
  | _ => true

/-- `l` happens, and `said` is what the client says with it. -/
def go (s : ConsoleWire) (l : FileStep) (said : List Said) : Option ConsoleWire :=
  (s.files.next l).map fun files =>
    { s with files, said := s.said ++ said, shown := s.shown ++ s.files.shownIn l }

/-- The body of the loop. `none`: the process ended. -/
def perform (s : ConsoleWire) (env : RoundEnv) : Console.Command → Option ConsoleWire
  | .quit => some { s with quit := true }
  | .send filePath =>
      let l := .file (.sendFile filePath env.send.mem env.sizeFails env.openFails) env.send.mem
      s.go l (s.files.spoken l)
  | .stress startData => s.go (.wire (.request startData env.send)) []
  | .invalid => some s
  | .chat msg => (chatPacket env.send.mem pktCChat msg).bind fun packet =>
      s.go (.wire (.send packet)) [.line msg]

/-- **The step function.** `none`: not possible, or a process ended. -/
def next (s : ConsoleWire) : ConsoleStep → Option ConsoleWire
  | .round env =>
      if s.quit || !s.files.sendFiles.isEmpty then none
      else
        let console := s.console.getline
        { s with console, rounds := s.rounds + 1 }.perform env (Console.command console.input)
  | .call mem faults notice =>
      match s.files.sendFiles with
      | [] => none
      | id :: _ =>
          let l := .file (.firstChunk id mem faults) notice
          s.go l (s.files.spoken l)
  | .beside l => if isBeside l then s.go l (s.files.spoken l) else none

/-- Both sides just connected; `text` is all that the user types. -/
def start (client : ClientEnd) (server : GameSession) (text : List UInt8) : ConsoleWire :=
  ⟨.start client server, .start text, 0, false, [], []⟩

end ConsoleWire

/-- The line, if it is one. -/
def Said.line? : Said → Option (List UInt8)
  | .line msg => some msg
  | .notice _ => none

namespace Console

/-- The message, if it is one of the chat. -/
def Command.chat? : Command → Option (List UInt8)
  | .chat msg => some msg
  | _ => none

/-- The chat messages of the first `n` passes. -/
def chats (text : List UInt8) (n : Nat) : List (List UInt8) :=
  (List.range n).filterMap fun k => (command (inputAt text k)).chat?

theorem chats_succ (text : List UInt8) (n : Nat) :
    chats text (n + 1) = chats text n ++ (command (inputAt text n)).chat?.toList := by
  unfold chats
  rw [List.range_succ, List.filterMap_append, filterMap_cons_toList, List.filterMap_nil,
    List.append_nil]

end Console

/-! ## 2. A step -/

namespace ConsoleWire

/-- **The invariant**: the chat is carried; the loop has read `rounds` times, and of the lines it
    has said the chat messages; a word for quitting was the last it has read. -/
structure ConsoleInv (t₀ : StressTest) (text : List UInt8) (s : ConsoleWire) : Prop where
  chat : s.files.ChatInv t₀ s.shown (s.said.map Said.text)
  console : s.console = Console.readings text s.rounds
  typed : s.said.filterMap Said.line? = Console.chats text s.rounds
  quits : ∀ k, k < s.rounds → Console.command (Console.inputAt text k) = .quit →
    s.quit = true ∧ s.rounds = k + 1

section Step

variable {t₀ : StressTest} {text : List UInt8} {s s' : ConsoleWire}

/-- What a step of the other threads, or of a command, does. -/
theorem go_spec (hI : s.files.ChatInv t₀ s.shown (s.said.map Said.text)) {l : FileStep}
    {said : List Said} (h : s.go l said = some s') (hok : FileWire.SendsAny l)
    (htexts : said.map Said.text = s.files.spokenTexts l) :
    s'.files.ChatInv t₀ s'.shown (s'.said.map Said.text) ∧ s'.said = s.said ++ said ∧
      s'.console = s.console ∧ s'.rounds = s.rounds ∧ s'.quit = s.quit := by
  obtain ⟨files, hfiles, rfl⟩ := Option.map_eq_some_iff.mp h
  refine ⟨?_, rfl, rfl, rfl, rfl⟩
  rw [List.map_append, htexts]
  exact hI.step hok hfiles

/-- The notices are no lines. -/
theorem line?_notices (events : List TransferEvent) :
    (notices events).filterMap Said.line? = [] := by
  unfold notices
  rw [List.filterMap_filterMap, List.filterMap_eq_nil_iff]
  intro event _
  cases event with
  | complete id success filePath => cases success <;> rfl
  | _ => rfl

theorem line?_spoken (f : FileWire) (l : FileStep) : (f.spoken l).filterMap Said.line? = [] := by
  cases l with
  | file l mem => exact line?_notices _
  | _ => rfl

/-- What the body of the loop does. -/
theorem perform_spec (hI : s.files.ChatInv t₀ s.shown (s.said.map Said.text)) {env : RoundEnv}
    {command : Console.Command} (h : s.perform env command = some s') :
    s'.files.ChatInv t₀ s'.shown (s'.said.map Said.text) ∧
      s'.said.filterMap Said.line? = s.said.filterMap Said.line? ++ command.chat?.toList ∧
      s'.console = s.console ∧ s'.rounds = s.rounds ∧
      s'.quit = (s.quit || decide (command = .quit)) := by
  cases command with
  | quit =>
      cases h
      exact ⟨hI, (List.append_nil _).symm, rfl, rfl, (Bool.or_true _).symm⟩
  | invalid =>
      cases h
      exact ⟨hI, (List.append_nil _).symm, rfl, rfl, (Bool.or_false _).symm⟩
  | send filePath =>
      obtain ⟨hchat, hsaid, hconsole, hrounds, hquit⟩ := go_spec hI h trivial rfl
      refine ⟨hchat, ?_, hconsole, hrounds, hquit.trans (Bool.or_false _).symm⟩
      rw [hsaid, List.filterMap_append, line?_spoken]
      rfl
  | stress startData =>
      obtain ⟨hchat, hsaid, hconsole, hrounds, hquit⟩ := go_spec hI h trivial rfl
      refine ⟨hchat, ?_, hconsole, hrounds, hquit.trans (Bool.or_false _).symm⟩
      rw [hsaid, List.filterMap_append]
      rfl
  | chat msg =>
      obtain ⟨packet, hpacket, h⟩ := Option.bind_eq_some_iff.mp h
      have htexts : [Said.line msg].map Said.text = s.files.spokenTexts (.wire (.send packet)) := by
        unfold FileWire.spokenTexts
        dsimp only
        rw [chatText_chatPacket hpacket]
        rfl
      obtain ⟨hchat, hsaid, hconsole, hrounds, hquit⟩ :=
        go_spec hI h (fromClient_chatPacket True hpacket) htexts
      refine ⟨hchat, ?_, hconsole, hrounds, hquit.trans (Bool.or_false _).symm⟩
      rw [hsaid, List.filterMap_append]
      rfl

/-- **A pass of the loop.** -/
theorem ConsoleInv.round (hI : s.ConsoleInv t₀ text) {env : RoundEnv}
    (h : s.next (.round env) = some s') : s'.ConsoleInv t₀ text := by
  unfold next at h
  dsimp only at h
  split at h
  case isTrue => cases h
  case isFalse hgo =>
  have hquit : s.quit = false := by
    rw [Bool.or_eq_true, not_or] at hgo
    exact Bool.eq_false_iff.mpr hgo.1
  have hline : s.console.getline = Console.readings text (s.rounds + 1) := by
    rw [hI.console]
    rfl
  rw [hline] at h
  obtain ⟨hchat, htyped, hconsole, hrounds, hquits⟩ := perform_spec
    (s := { s with console := Console.readings text (s.rounds + 1), rounds := s.rounds + 1 })
    hI.chat h
  refine ⟨hchat, hconsole.trans (by rw [hrounds]), ?_, fun k hk hword => ?_⟩
  · rw [htyped, hrounds, Console.chats_succ, ← hI.typed]
    rfl
  · rw [hrounds] at hk ⊢
    rcases Nat.lt_succ_iff_lt_or_eq.mp hk with hk | rfl
    · nomatch hquit.symm.trans (hI.quits k hk hword).1
    · refine ⟨hquits.trans ?_, rfl⟩
      rw [Bool.or_eq_true]
      exact .inr (decide_eq_true hword)

/-- A step in which the client says what its transfers have it say. -/
theorem ConsoleInv.go (hI : s.ConsoleInv t₀ text) {l : FileStep} (hok : FileWire.SendsAny l)
    (htexts : (s.files.spoken l).map Said.text = s.files.spokenTexts l)
    (h : s.go l (s.files.spoken l) = some s') : s'.ConsoleInv t₀ text := by
  obtain ⟨hchat, hsaid, hconsole, hrounds, hquit⟩ := go_spec hI.chat h hok htexts
  refine ⟨hchat, ?_, ?_, ?_⟩
  · rw [hconsole, hrounds]
    exact hI.console
  · rw [hsaid, hrounds, List.filterMap_append, line?_spoken, List.append_nil]
    exact hI.typed
  · rw [hquit, hrounds]
    exact hI.quits

/-- **The call of SendNextChunk in a pass.** -/
theorem ConsoleInv.call (hI : s.ConsoleInv t₀ text) {mem notice : Memory} {faults : SendFaults}
    (h : s.next (.call mem faults notice) = some s') : s'.ConsoleInv t₀ text := by
  unfold next at h
  dsimp only at h
  split at h
  · cases h
  · rename_i id _ _
    exact hI.go (l := .file (.firstChunk id mem faults) notice) trivial rfl h

/-- **Any other step.** -/
theorem ConsoleInv.beside (hI : s.ConsoleInv t₀ text) {l : FileStep}
    (h : s.next (.beside l) = some s') : s'.ConsoleInv t₀ text := by
  unfold next at h
  dsimp only at h
  split at h
  case isFalse => cases h
  case isTrue hbeside =>
  have hok : FileWire.SendsAny l := by
    unfold isBeside at hbeside
    unfold FileWire.SendsAny
    split
    · cases hbeside
    · trivial
  have htexts : (s.files.spoken l).map Said.text = s.files.spokenTexts l := by
    unfold isBeside at hbeside
    unfold FileWire.spokenTexts
    split
    · cases hbeside
    · rfl
  exact hI.go hok htexts h

/-- The call of SendNextChunk completes the transfer 1, and the notice has no room for the name of
    its file. -/
def NoRoom (fs : FileSystem) (m : FileTransferManager) (faults : SendFaults) : Prop :=
  ∃ context, m.transfers.find? 1 = some context ∧
    FileTransferManager.Completes fs context faults ∧
    74 < (cString (Path.filename context.filePath)).length

/-- The callback says nothing of a file that failed, and has room for 74 bytes of the name of one
    that was sent. -/
theorem transferComplete_eq_none_iff (mem : Memory) (success : Bool) (filePath : Path) :
    ClientSession.transferComplete mem success filePath false = none ↔
      success = true ∧ 74 < (cString (Path.filename filePath)).length := by
  cases success with
  | false => exact iff_of_false (Option.some_ne_none _) fun h => Bool.false_ne_true h.1
  | true =>
      rw [← Option.not_isSome_iff_eq_none, ClientSession.transferComplete_isSome_iff, Nat.not_le,
        and_iff_right rfl]

/-- **The call of SendNextChunk ends the process** just where the notice has no room. -/
theorem firstChunk_eq_none_iff (f : FileWire) {id : Nat} (hid : id ∈ f.sendFiles) (mem : Memory)
    (faults : SendFaults) (notice : Memory) :
    f.next (.file (.firstChunk id mem faults) notice) = none ↔
      NoRoom f.wire.client.files.fs f.sending.manager faults := by
  have hmem : id ∈ f.sending.sendFiles := hid
  unfold FileWire.next ClientSession.next ClientSession.transferEvents ClientSession.events NoRoom
  dsimp only
  rw [if_pos hmem, if_pos hmem, Option.bind_some, Option.map_eq_none_iff, sentOn_eq_none_iff]
  constructor
  · rintro ⟨id, success, filePath, hcomplete, hnone⟩
    obtain ⟨-, -, key, context, hfind, hcompletes, rfl⟩ :=
      (FileTransferManager.complete_mem_sendNextChunk_iff _ _ _ _ _ _ _ _).mp hcomplete
    obtain ⟨-, hlong⟩ := (transferComplete_eq_none_iff _ _ _).mp hnone
    obtain rfl := ClientSession.findTransfer_one_key hfind
    exact ⟨context, FileTransferManager.find?_of_findTransfer hfind, hcompletes, hlong⟩
  · rintro ⟨context, hfind, hcompletes, hlong⟩
    refine ⟨1, true, context.filePath, ?_, (transferComplete_eq_none_iff _ _ _).mpr ⟨rfl, hlong⟩⟩
    exact (FileTransferManager.complete_mem_sendNextChunk_iff _ _ _ _ _ _ _ _).mpr ⟨rfl, rfl, 1,
      context, FileTransferManager.findTransfer_of_find? hfind, hcompletes, rfl⟩

/-- The first transfer of a session, of a file that one slice holds, is completed by the first
    call. -/
theorem completes_contextAfter {fs : FileSystem} {filePath : Path} {content : List UInt8}
    (hfile : fs.files filePath = some content) (hlen : content.length ≤ defaultChunkSize) :
    FileTransferManager.Completes fs (contextAfter filePath content.length defaultChunkSize 0)
      .none := by
  have h64 : content.length < 2 ^ 64 := Nat.lt_of_le_of_lt hlen (by decide)
  have hnot : (contextAfter filePath content.length defaultChunkSize 0).isCompleted = false :=
    decide_eq_false (by omega)
  refine ⟨hnot, ?_, .inr rfl, .inr ⟨rfl, rfl, decide_eq_true ?_⟩⟩
  · show (fs.files filePath).isSome = true
    rw [hfile]
    rfl
  · show (contextAfter filePath content.length defaultChunkSize 0).opened.remainingBytes ≤
      (contextAfter filePath content.length defaultChunkSize 0).opened.currentChunkSize
    rw [remainingBytes_contextAfter h64, currentChunkSize_contextAfter h64]
    exact Nat.le_min.mpr ⟨by rw [Nat.zero_mul, Nat.sub_zero]; exact hlen, Nat.le_refl _⟩

/-- **The first file that is sent ends its pass** where one slice holds it, and its name fits the
    request but not the notice. -/
theorem first_file_ends_pass {filePath : Path} {content : List UInt8} {env : RoundEnv}
    (hquit : s.quit = false) (hidle : s.files.sendFiles = [])
    (hline : Console.command s.console.getline.input = .send filePath)
    (hfirst : s.files.sending.manager.nextConnectionId = 1)
    (hfile : s.files.wire.client.files.fs.files filePath = some content)
    (hlen : content.length ≤ defaultChunkSize)
    (hrequest : (Path.filename filePath).length < sizeofFilename)
    (hnotice : 74 < (cString (Path.filename filePath)).length)
    (hcalm : env.sizeFails = false ∧ env.openFails = false) :
    ∃ s', s.next (.round env) = some s' ∧
      ∀ mem notice, s'.next (.call mem .none notice) = none := by
  obtain ⟨packet, -, hstart⟩ := startFileSend_of_file s.files.sending.manager defaultChunkSize
    env.send.mem hfile (Nat.lt_of_le_of_lt hlen (by decide)) hrequest
  rw [hfirst] at hstart
  have hskip : (!s.files.wire.client.files.fs.exists? filePath || env.sizeFails) = false := by
    unfold FileSystem.exists?
    rw [hfile, hcalm.1]
    rfl
  let l : SessionStep := .sendFile filePath env.send.mem env.sizeFails env.openFails
  let m := s.files.sending.manager.bump.setContext 1
    (contextAfter filePath content.length defaultChunkSize 0)
  let c : ClientSession := ⟨m, [1], s.files.scheduled, s.files.sent⟩
  -- SendFile up to its call of SendNextChunk
  have hsession : s.files.sending.next s.files.wire.client.files.fs l = some c := by
    unfold ClientSession.next
    dsimp only [l]
    rw [hskip, hcalm.2, hstart, hfirst, show s.files.sending.sendFiles = [] from hidle]
    rfl
  have hevents : s.files.sending.transferEvents s.files.wire.client.files.fs l =
      [.send packet] := by
    unfold ClientSession.transferEvents
    dsimp only [l]
    rw [hskip, hcalm.2, hstart]
    rfl
  have hfiles : s.files.next (.file l env.send.mem) = some
      ⟨s.files.wire.fromClient (s.files.clientAt c) [packet], [1], s.files.scheduled,
        s.files.sent⟩ :=
    s.files.next_file_of_some env.send.mem hsession (congrArg (sentOn _) hevents)
  have hround : s.next (.round env) = ({ s with
      console := s.console.getline, rounds := s.rounds + 1 } : ConsoleWire).go
        (.file l env.send.mem) (s.files.spoken (.file l env.send.mem)) := by
    unfold next
    dsimp only
    rw [hquit, hidle, if_neg (by decide), hline]
    rfl
  unfold ConsoleWire.go at hround
  rw [hfiles, Option.map_some] at hround
  refine ⟨_, hround, fun mem notice => ?_⟩
  unfold next ConsoleWire.go
  dsimp only
  rw [Option.map_eq_none_iff]
  exact (firstChunk_eq_none_iff _ List.mem_cons_self _ _ _).mpr ⟨_,
    FileTransferManager.find?_setContext_self .., completes_contextAfter hfile hlen, hnotice⟩

end Step

/-! ## 4. The chat -/

/-- A read goes through where no packet of a file is on the way. -/
theorem exists_toServer {s : ConsoleWire} {later : List (List UInt8)}
    (hH : s.files.wire.toServer.Holds [] later)
    (hlater : ∀ p ∈ later, 4 ≤ p.length ∧ isFileTransferPacket (packetId p) = false) {n : Nat}
    (env : Nat → CallEnv) (h1 : 1 ≤ n) (hle : n ≤ s.files.wire.toServer.onWay.length)
    (hsize : (n : Int) ≤ Session.bufferSize) :
    ∃ s' later', s.next (.beside (.wire (.toServer n env))) = some s' ∧
      s'.files.wire.toServer.onWay = s.files.wire.toServer.onWay.drop n ∧
      s'.files.wire.toServer.Holds [] later' ∧ (∀ p ∈ later', p ∈ later) ∧
      s'.files.sendFiles = s.files.sendFiles ∧ s'.quit = s.quit ∧ s'.said = s.said ++ [] ∧
      s'.rounds = s.rounds := by
  obtain ⟨r, calls, ps, later', hread, rfl, hpackets, hframed, -, hH'⟩ :=
    hH.read (hH.readFits h1 hle hsize)
  have hnoFile : ∀ c ∈ calls, isFileTransferPacket (packetId c.buffer) = false := fun c hc => by
    obtain ⟨h4, hno⟩ := hlater c.packet (List.mem_append_left _ (hpackets ▸ List.mem_map_of_mem hc))
    rwa [← GameSession.packetId_packet ((hframed c hc).length_packet ▸ h4)]
  obtain ⟨r', hr'⟩ := s.files.wire.server.exists_handleAll env hnoFile
  let w := { s.files.wire with
    toServer := ⟨s.files.wire.toServer.onWay.drop n, r⟩ }.fromServer r'.1 r'.2
  have hwire : s.files.wire.next (.toServer n env) = some w := by
    rw [StressWire.next, hread, Option.bind_some]
    dsimp only
    rw [hr']
    rfl
  have hnext : s.next (.beside (.wire (.toServer n env))) = some { s with
      files := { s.files with wire := w }
      said := s.said ++ []
      shown := s.shown ++ s.files.shownIn (.wire (.toServer n env)) } := by
    unfold next go FileWire.next
    dsimp only
    rw [if_pos (show isBeside (.wire (.toServer n env)) = true from rfl), hwire]
    rfl
  exact ⟨_, later', hnext, rfl, hH', fun p hp => List.mem_append_right _ hp, rfl, rfl, rfl, rfl⟩

end ConsoleWire

end ServerCore
