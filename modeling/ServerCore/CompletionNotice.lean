/-
  File:      ServerCore/CompletionNotice.lean
  Subject:   The chat messages that report a completed file transfer: GameSession's
             SendFileCompleteMessage (server.cpp) and ClientSession's completion callback
             (client.cpp).

  Both put the name of the file behind a text of their own and copy the whole with `strcpy_s` into
  the 100 bytes of `ChatData::msg`; where it does not fit the process ends. The name may have 255
  bytes. It comes to the server in the header of the request, and to the callback as the file of
  the context, which is `directory/name` or, where that cannot be opened, `received_<time>.bin`.

  `completion_notices_iff`: the notice of a completed reception fits exactly if the last component
  of the name in the header has at most 77 bytes, or the data went to the alternative file; that
  of a completed sending exactly if the file name has at most 74.
-/
import ServerCore.FileRequest
import ServerCore.FileSession
import ServerCore.GameSession
import ServerCore.TransferSession

namespace ServerCore

open Seg LittleEndian Trans

/-! ## 1. The notices -/

/-- `sizeof(ChatData::msg)` -/
def sizeofMsg : Nat := 100

/-- `sizeof(PacketHeader) + sizeof(ChatData)` -/
def sizeofChatPacket : Nat := sizeofPacketHeader + sizeofMsg

/-- `PKT_S_CHAT` -/
def pktSChat : Nat := 2

/-- What `s.c_str()` points to, up to its NUL. -/
def cString (s : List UInt8) : List UInt8 := s.takeWhile (· != 0)

/-- `strcpy_s(dest, src)` for a `dest` of `size` bytes: what is stored there, with the NUL. `none`:
    there is no room for it, and the process ends. -/
def strcpyS (size : Nat) (src : List UInt8) : Option (List UInt8) :=
  if (cString src).length < size then some (cString src ++ [0]) else none

/-- A chat packet with the text `msg`; `none`: the process ended. -/
def chatPacket (mem : Memory) (id : Nat) (msg : List UInt8) : Option (List UInt8) :=
  (strcpyS sizeofMsg msg).map fun copied =>
    let p := mem.reserve sizeofChatPacket
    let p := writeLe p 0 2 sizeofChatPacket
    let p := writeLe p 2 2 id
    splice p sizeofPacketHeader copied

/-- `SendFileCompleteMessage(filePath)`: the packet it sends -/
def GameSession.sendFileCompleteMessage (mem : Memory) (filePath : Path) : Option (List UInt8) :=
  let filename := Path.filename filePath
  let completeMsg := Path.ofString "Server received file: " ++ filename
  chatPacket mem pktSChat completeMsg

/-- The completion callback of a `GameSession`: the packets it sends. `none`: the process ended. -/
def GameSession.transferComplete (mem : Memory) (success : Bool) (filePath : Path) :
    Option (List (List UInt8)) :=
  if success then (sendFileCompleteMessage mem filePath).map fun p => [p] else some []

/-- `SendChatPacket(msg)`: the packets it sends; `openFails`: there is no send buffer. -/
def ClientSession.sendChatPacket (mem : Memory) (msg : List UInt8) (openFails : Bool) :
    Option (List (List UInt8)) :=
  if openFails then some [] else (chatPacket mem pktCChat msg).map fun p => [p]

/-- The completion callback of a `ClientSession`. -/
def ClientSession.transferComplete (mem : Memory) (success : Bool) (filePath : Path)
    (openFails : Bool) : Option (List (List UInt8)) :=
  if success then
    sendChatPacket mem (Path.ofString "File transfer completed: " ++ Path.filename filePath)
      openFails
  else some []

theorem chatPacket_isSome_iff (mem : Memory) (id : Nat) (msg : List UInt8) :
    (chatPacket mem id msg).isSome ↔ (cString msg).length < sizeofMsg := by
  unfold chatPacket strcpyS
  rw [Option.isSome_map]
  split
  · rename_i hroom
    exact iff_of_true rfl hroom
  · rename_i hroom
    exact iff_of_false Bool.false_ne_true hroom

/-- A packet that is sent is as long as its header says. -/
theorem length_chatPacket {mem : Memory} {id : Nat} {msg p : List UInt8}
    (h : chatPacket mem id msg = some p) : p.length = sizeofChatPacket := by
  obtain ⟨copied, hcopied, rfl⟩ := Option.map_eq_some_iff.mp h
  unfold strcpyS at hcopied
  split at hcopied
  case isFalse => cases hcopied
  case isTrue hroom =>
  obtain rfl := Option.some.inj hcopied
  have h104 : sizeofChatPacket = 104 := rfl
  have h100 : sizeofMsg = 100 := rfl
  have h4 : sizeofPacketHeader = 4 := rfl
  have hreserve := mem.length_reserve sizeofChatPacket
  have hsize : (writeLe (mem.reserve sizeofChatPacket) 0 2 sizeofChatPacket).length =
      sizeofChatPacket := by
    rw [length_writeLe (by omega), hreserve]
  have hid : (writeLe (writeLe (mem.reserve sizeofChatPacket) 0 2 sizeofChatPacket) 2 2
      id).length = sizeofChatPacket := by
    rw [length_writeLe (by omega), hsize]
  rw [length_splice, hid]
  rw [List.length_append, List.length_singleton, hid]
  omega

/-- A text without NUL before a string. -/
theorem cString_append {text : List UInt8} (htext : 0 ∉ text) (s : List UInt8) :
    cString (text ++ s) = text ++ cString s :=
  List.takeWhile_append_of_pos fun c hc => by
    rw [bne_iff_ne]
    rintro rfl
    exact htext hc

theorem length_cString_le (s : List UInt8) : (cString s).length ≤ s.length :=
  (List.takeWhile_sublist _).length_le

theorem cString_of_not_mem {s : List UInt8} (h : 0 ∉ s) : cString s = s := by
  have hs := cString_append h []
  rwa [List.append_nil, show cString [] = [] from rfl, List.append_nil] at hs

theorem ofString_serverReceived : Path.ofString "Server received file: " =
    [0x53, 0x65, 0x72, 0x76, 0x65, 0x72, 0x20, 0x72, 0x65, 0x63, 0x65, 0x69, 0x76, 0x65, 0x64, 0x20,
      0x66, 0x69, 0x6C, 0x65, 0x3A, 0x20] := by
  rw [show "Server received file: " = String.ofList ['S', 'e', 'r', 'v', 'e', 'r', ' ', 'r', 'e',
    'c', 'e', 'i', 'v', 'e', 'd', ' ', 'f', 'i', 'l', 'e', ':', ' '] from rfl,
    Path.ofString_ofList]
  decide

theorem ofString_transferCompleted : Path.ofString "File transfer completed: " =
    [0x46, 0x69, 0x6C, 0x65, 0x20, 0x74, 0x72, 0x61, 0x6E, 0x73, 0x66, 0x65, 0x72, 0x20, 0x63, 0x6F,
      0x6D, 0x70, 0x6C, 0x65, 0x74, 0x65, 0x64, 0x3A, 0x20] := by
  rw [show "File transfer completed: " = String.ofList ['F', 'i', 'l', 'e', ' ', 't', 'r', 'a', 'n',
    's', 'f', 'e', 'r', ' ', 'c', 'o', 'm', 'p', 'l', 'e', 't', 'e', 'd', ':', ' '] from rfl,
    Path.ofString_ofList]
  decide

/-- **The notice of the server** has room for 77 bytes of a name. -/
theorem GameSession.transferComplete_isSome_iff (mem : Memory) (filePath : Path) :
    (transferComplete mem true filePath).isSome ↔
      (cString (Path.filename filePath)).length ≤ 77 := by
  unfold transferComplete sendFileCompleteMessage
  rw [if_pos rfl, Option.isSome_map, chatPacket_isSome_iff, ofString_serverReceived,
    cString_append (by decide), List.length_append, sizeofMsg]
  simp only [List.length_cons, List.length_nil]
  omega

/-- **The notice of the client** has room for 74. -/
theorem ClientSession.transferComplete_isSome_iff (mem : Memory) (filePath : Path) :
    (transferComplete mem true filePath false).isSome ↔
      (cString (Path.filename filePath)).length ≤ 74 := by
  unfold transferComplete sendChatPacket
  rw [if_pos rfl, if_neg Bool.false_ne_true, Option.isSome_map, chatPacket_isSome_iff,
    ofString_transferCompleted, cString_append (by decide), List.length_append, sizeofMsg]
  simp only [List.length_cons, List.length_nil]
  omega

/-! ## 2. The name of a received file -/

namespace Path

/-- The last component of a name: what is behind its last separator. -/
def baseName (name : Path) : Path := (name.reverse.takeWhile fun c => !isSeparator c).reverse

theorem takeWhile_append_stop {p : UInt8 → Bool} {s : UInt8} (hs : p s = false) (rest : Path) :
    ∀ l : Path, (l ++ s :: rest).takeWhile p = l.takeWhile p
  | [] => by
      rw [List.nil_append, List.takeWhile_cons_of_neg (by rw [hs]; exact Bool.false_ne_true)]
      rfl
  | c :: l => by
      rw [List.cons_append, List.takeWhile_cons, List.takeWhile_cons,
        takeWhile_append_stop hs rest l]

/-- The file name of an entry is that of its name. -/
theorem filename_append (dir : Path) {s : UInt8} (hs : isSeparator s = true) (name : Path) :
    filename (dir ++ s :: name) = baseName name := by
  unfold filename baseName
  rw [dropDrive_append dir hs, List.reverse_append, List.reverse_cons, List.append_assoc,
    List.singleton_append, takeWhile_append_stop (by rw [hs]; rfl)]

theorem mem_of_mem_baseName {name : Path} {c : UInt8} (h : c ∈ baseName name) : c ∈ name :=
  List.mem_reverse.mp ((List.takeWhile_sublist _).subset (List.mem_reverse.mp h))

/-- A digit is one byte. -/
theorem length_ofString_toString (n : Nat) :
    (ofString (toString n)).length = (Nat.toDigits 10 n).length := by
  have hone : ∀ l : List Char, (∀ c ∈ l, c.isDigit = true) →
      (l.flatMap String.utf8EncodeChar).length = l.length := by
    intro l hl
    induction l with
    | nil => rfl
    | cons c l ih =>
        obtain ⟨hc, hrest⟩ := List.forall_mem_cons.mp hl
        have hsize : c.utf8Size = 1 := by
          have hhigh : c.val ≤ 57 := (by simpa [Char.isDigit] using hc : 48 ≤ c.val ∧ c.val ≤ 57).2
          unfold Char.utf8Size
          rw [if_pos (UInt32.le_trans hhigh (by decide))]
        rw [List.flatMap_cons, List.length_append, ih hrest, String.length_utf8EncodeChar, hsize,
          List.length_cons, Nat.add_comm]
  rw [Nat.toString_eq_ofList_toDigits, ofString_ofList]
  exact hone _ fun c hc => Nat.isDigit_of_mem_toDigits (by decide) (by decide) hc

end Path

/-- The name of the alternative file is short, at any time that a `time_t` holds. -/
theorem length_filename_alternativePath (dirPath : Path) {time : Nat} (h : time < 2 ^ 63) :
    (Path.filename (alternativePath dirPath time)).length ≤ 32 := by
  have hdigits : (Nat.toDigits 10 time).length ≤ 19 :=
    (Nat.length_toDigits_le_iff (by decide) (by decide)).mpr (h.trans (by decide))
  have hsep : Path.isSeparator 0x2F = true := by decide
  unfold alternativePath
  rw [Path.ofString_received, List.append_assoc, List.append_assoc, List.cons_append,
    Path.filename_append dirPath hsep]
  unfold Path.baseName
  rw [List.length_reverse]
  refine ((List.takeWhile_sublist _).length_le).trans ?_
  rw [List.length_reverse, List.length_append, List.length_append, Path.length_ofString_toString,
    Path.ofString_bin]
  simp only [List.length_cons, List.length_nil]
  omega

/-! ## 3. The reception -/

namespace TransferSession

/-- The name in the header of the request that started the transfer `id`. -/
def announced : List (TransferSession × TransferStep) → Nat → Path
  | [], _ => []
  | (s, l) :: h, id =>
      if s.started l = some id then
        match l with
        | .packet p _ => FileHeader.filename p
        | _ => []
      else announced h id

theorem announced_of_request {s : TransferSession} {p : List UInt8} {env : Surroundings} {id : Nat}
    (h : s.started (.packet p env) = some id) (hist : List (TransferSession × TransferStep)) :
    announced ((s, .packet p env) :: hist) id = FileHeader.filename p :=
  if_pos h

theorem announced_of_ne {s : TransferSession} {l : TransferStep} {id : Nat}
    (h : s.started l ≠ some id) (hist : List (TransferSession × TransferStep)) :
    announced ((s, l) :: hist) id = announced hist id :=
  if_neg h

/-- The names are C strings. -/
theorem zero_not_mem_announced (id : Nat) :
    ∀ hist : List (TransferSession × TransferStep), 0 ∉ announced hist id
  | [] => List.not_mem_nil
  | (s, l) :: hist => by
      unfold announced
      split
      · cases l with
        | packet p env => exact not_mem_filename p
        | _ => exact List.not_mem_nil
      · exact zero_not_mem_announced id hist

/-- `std::time_t` has 64 bits, with the sign. -/
def TimeFits (_ : Run) (l : TransferStep) : Prop :=
  ∀ p env, l = .packet p env → env.time < 2 ^ 63

/-- The file of a context: the one of the request, or the alternative. -/
def FileOf (dir name path : Path) : Prop :=
  path = dir ++ 0x2F :: name ∨
    ∃ dirPath time, time < 2 ^ 63 ∧ path = alternativePath dirPath time

/-- **Each reception has the file of its request**, or the alternative. -/
structure Named (dir : Path) (t : Run) : Prop where
  directory : t.state.session.fileReceiveDirectory = dir
  file : ∀ id context, isReception t.history id = true → t.state.find? id = some context →
    FileOf dir (announced t.history id) context.filePath

/-- The file that a chunk goes to. -/
theorem Named.chunkPath {dir : Path} {t : Run} (hI : Named dir t) {id : Nat}
    {context : FileTransferContext} (hreception : isReception t.history id = true)
    (hlast : t.state.latest? = some (id, context)) {time : Nat} (htime : time < 2 ^ 63)
    (faults : ChunkFaults) :
    FileOf dir (announced t.history id) (chunkPath t.state.fs context time faults) := by
  rcases chunkPath_cases t.state.fs context time faults with e | e
  · rw [e]
    exact hI.file id context hreception (find?_of_latest? hlast)
  · exact .inr ⟨_, time, htime, e⟩

/-- **One step.** -/
theorem Named.step {dir : Path} {t t' : Run} {l : TransferStep} (hI : Named dir t)
    (htime : TimeFits t l) (hs : traced next t l = some t') : Named dir t' := by
  obtain ⟨hnext, hhistory⟩ := traced_eq_some_iff.mp hs
  refine ⟨(fileReceiveDirectory_next hnext).trans hI.directory, fun id context' hreception hfind =>
    ?_⟩
  rw [hhistory] at hreception ⊢
  have hbefore : t.state.started l ≠ some id → isReception t.history id = true := fun hnot => by
    rwa [isReception_of_ne hnot] at hreception
  cases found_after hnext hfind with
  | requested p env hl hstart =>
      subst hl
      rw [announced_of_request hstart]
      exact .inl (congrArg (· ++ 0x2F :: FileHeader.filename p) hI.directory)
  | sending _ _ _ _ _ hl hstart =>
      obtain ⟨p, env, rfl⟩ := exists_packet_of_isReception hreception hstart
      cases hl
  | kept _ hfind hnot =>
      rw [announced_of_ne hnot]
      exact hI.file id _ (hbefore hnot) hfind
  | opened p env context hl hlast hnot =>
      rw [announced_of_ne hnot]
      exact hI.chunkPath (hbefore hnot) hlast (htime p env hl) _
  | accepted p env context hl hlast hnot =>
      rw [announced_of_ne hnot, FileTransferContext.filePath_accept]
      exact hI.chunkPath (hbefore hnot) hlast (htime p env hl) _
  | continued context _ hfind hpath _ _ hnot =>
      rw [announced_of_ne hnot, hpath]
      exact hI.file id context (hbefore hnot) hfind

theorem named_of_reach {fs : FileSystem} {dir : Path} {connected : Bool} {t : Run}
    (hr : Reach (traced next) TimeFits (start fs dir connected) t) : Named dir t :=
  hr.invariant ⟨rfl, fun id _ h => absurd (show isReception [] id = true from h)
    Bool.false_ne_true⟩ fun _ _ _ hI hok hs => hI.step hok hs

/-- **The notice of a completed reception.** -/
theorem notice_isSome_iff {dir : Path} {t : Run} {p : List UInt8} {env : Surroundings}
    (hI : Named dir t) (htime : TimeFits t (.packet p env)) {id : Nat} {path : Path}
    (hreception : isReception t.history id = true)
    (h : .complete id true path ∈ t.state.events (.packet p env)) (mem : Memory) :
    (GameSession.transferComplete mem true path).isSome ↔
      path ≠ dir ++ 0x2F :: announced t.history id ∨
        (Path.baseName (announced t.history id)).length ≤ 77 := by
  rw [GameSession.transferComplete_isSome_iff]
  by_cases hpath : path = dir ++ 0x2F :: announced t.history id
  · have hsep : Path.isSeparator 0x2F = true := by decide
    have hnoNul : 0 ∉ Path.baseName (announced t.history id) := fun hmem =>
      zero_not_mem_announced id t.history (Path.mem_of_mem_baseName hmem)
    rw [hpath, Path.filename_append dir hsep, cString_of_not_mem hnoNul]
    exact (or_iff_right fun hne => hne rfl).symm
  · refine iff_of_true ?_ (.inl hpath)
    change _ ∈ if packetId p = fileDataChunk then _ else _ at h
    split at h
    · obtain ⟨context, hlast, -, -, -, rfl⟩ := closes_of_complete h
      rcases hI.chunkPath hreception hlast (htime p env rfl) env.chunk with
        hfile | ⟨dirPath, time, hfits, e⟩
      · exact absurd hfile hpath
      · rw [e]
        have hshort := length_filename_alternativePath dirPath hfits
        have hle := length_cString_le (Path.filename (alternativePath dirPath time))
        omega
    · exact absurd h List.not_mem_nil

end TransferSession

/-! ## 4. The sending -/

namespace ClientSession

/-- What the call of SendNextChunk in a step does beside the state. -/
def events (fs : FileSystem) (s : ClientSession) : SessionStep → List TransferEvent
  | .sendFile _ _ _ _ => []
  | .firstChunk id mem faults =>
      if id ∈ s.sendFiles then (s.manager.sendNextChunk fs 1 mem faults).2.2 else []
  | .thread id mem faults =>
      if id ∈ s.scheduled then (s.manager.sendNextChunk fs id mem faults).2.2 else []

/-- The file was given to SendFile. -/
def SentFile (steps : List SessionStep) (filePath : Path) : Prop :=
  ∃ mem sizeFails openFails, .sendFile filePath mem sizeFails openFails ∈ steps

/-- SendNextChunk keeps the files of the transfers. -/
theorem filePath_sendNextChunk {fs : FileSystem} {m : FileTransferManager} {connectionId : Nat}
    {mem : Memory} {faults : SendFaults} {id : Nat} {context : FileTransferContext}
    (h : (m.sendNextChunk fs connectionId mem faults).2.1.transfers.find? id = some context) :
    ∃ before, m.transfers.find? id = some before ∧ before.filePath = context.filePath := by
  have hset : ∀ {key : Nat} {before after : FileTransferContext},
      (m.setContext key after).transfers.find? id = some context →
      m.findTransfer connectionId = some (key, before) → before.filePath = after.filePath →
      ∃ before, m.transfers.find? id = some before ∧ before.filePath = context.filePath := by
    intro key before after hafter hfind hsame
    rcases FileTransferManager.find?_setContext_cases hafter with ⟨rfl, rfl⟩ | hkept
    · exact ⟨before, FileTransferManager.find?_of_findTransfer hfind, hsame⟩
    · exact ⟨context, hkept, rfl⟩
  have hout := m.sendNextChunk_outcome fs connectionId mem faults
  generalize m.sendNextChunk fs connectionId mem faults = r at h hout
  cases hout with
  | nothing result => exact ⟨context, h, rfl⟩
  | failed key before hfind => exact hset h hfind rfl
  | finished key before hfind => exact hset h hfind rfl
  | last key before packet hfind => exact hset h hfind rfl
  | more key before packet hfind => exact hset h hfind rfl

/-- One step: the files of the transfers are those of before, and the one given to SendFile. -/
theorem filePath_next {fs : FileSystem} {s s' : ClientSession} {l : SessionStep}
    (h : s.next fs l = some s') {id : Nat} {context : FileTransferContext}
    (hfind : s'.manager.transfers.find? id = some context) :
    (∃ before, s.manager.transfers.find? id = some before ∧
        before.filePath = context.filePath) ∨ SentFile [l] context.filePath := by
  cases l with
  | sendFile filePath mem sizeFails openFails =>
      rcases next_sendFile_cases h with rfl | ⟨content, -, -, -, rfl⟩
      · exact .inl ⟨context, hfind, rfl⟩
      · rcases FileTransferManager.find?_setContext_cases hfind with ⟨-, rfl⟩ | hbefore
        · exact .inr ⟨mem, sizeFails, openFails, List.mem_singleton_self _⟩
        · exact .inl ⟨context, hbefore, rfl⟩
  | firstChunk id' mem faults =>
      obtain ⟨-, rfl⟩ := next_firstChunk_eq h
      exact .inl (filePath_sendNextChunk hfind)
  | thread id' mem faults =>
      obtain ⟨-, rfl⟩ := next_thread_eq h
      exact .inl (filePath_sendNextChunk hfind)

/-- **A run**: what the session transfers was given to SendFile. -/
theorem sentFile_of_exec {fs : FileSystem} : ∀ (steps : List SessionStep) {s s' : ClientSession},
    exec (next fs) always s steps = some s' → ∀ {id : Nat} {context : FileTransferContext},
      s'.manager.transfers.find? id = some context →
        (∃ before, s.manager.transfers.find? id = some before ∧
          before.filePath = context.filePath) ∨ SentFile steps context.filePath
  | [], s, s', h, id, context, hfind => by
      obtain rfl := Option.some.inj h
      exact .inl ⟨context, hfind, rfl⟩
  | l :: steps, s, s', h, id, context, hfind => by
      obtain ⟨-, s₁, hstep, hrun⟩ := exec_cons_eq_some h
      obtain ⟨before, hbefore, hsame⟩ | ⟨mem, sizeFails, openFails, hmem⟩ :=
        sentFile_of_exec steps hrun hfind
      · rw [← hsame]
        rcases filePath_next hstep hbefore with hfirst | ⟨mem, sizeFails, openFails, hmem⟩
        · exact .inl hfirst
        · obtain rfl := List.mem_singleton.mp hmem
          exact .inr ⟨mem, sizeFails, openFails, List.mem_cons_self⟩
      · exact .inr ⟨mem, sizeFails, openFails, List.mem_cons_of_mem _ hmem⟩

/-- A completion reports the file of a transfer. -/
theorem find?_of_complete {fs : FileSystem} {s : ClientSession} {l : SessionStep} {id : Nat}
    {path : Path} (h : .complete id true path ∈ s.events fs l) :
    ∃ key context, s.manager.transfers.find? key = some context ∧ context.filePath = path := by
  have hcall : ∀ (connectionId : Nat) (mem : Memory) (faults : SendFaults),
      .complete id true path ∈ (s.manager.sendNextChunk fs connectionId mem faults).2.2 →
        ∃ key context, s.manager.transfers.find? key = some context ∧
          context.filePath = path := by
    intro connectionId mem faults hmem
    obtain ⟨-, -, key, context, hfind, -, hpath⟩ :=
      (FileTransferManager.complete_mem_sendNextChunk_iff _ _ _ _ _ _ _ _).mp hmem
    exact ⟨key, context, FileTransferManager.find?_of_findTransfer hfind, hpath⟩
  cases l with
  | sendFile filePath mem sizeFails openFails => cases h
  | firstChunk id' mem faults =>
      unfold events at h
      dsimp only at h
      split at h
      · exact hcall 1 mem faults h
      · cases h
  | thread id' mem faults =>
      unfold events at h
      dsimp only at h
      split at h
      · exact hcall id' mem faults h
      · cases h

end ClientSession

/-! ## 5. Whether the notices fit -/

/-- **When completion notices fit.** In every run of a session the notice of a completed reception
    fits exactly if its file is the alternative one, or the last component of the name in the
    header of its request has at most 77 bytes; in every run of a session that sends files the
    notice of a completed one, which was given to SendFile, fits exactly if its file name has at
    most 74. -/
theorem completion_notices_iff (mem : Memory) :
    (∀ (fs : FileSystem) (dir : Path) (connected : Bool) (t : TransferSession.Run),
      Reach (traced TransferSession.next) TransferSession.TimeFits
        (TransferSession.start fs dir connected) t →
      ∀ p env, TransferSession.TimeFits t (.packet p env) → ∀ id path,
        TransferSession.isReception t.history id = true →
        .complete id true path ∈ t.state.events (.packet p env) →
          ((GameSession.transferComplete mem true path).isSome ↔
            path ≠ dir ++ 0x2F :: TransferSession.announced t.history id ∨
              (Path.baseName (TransferSession.announced t.history id)).length ≤ 77)) ∧
    ∀ (fs : FileSystem) (steps : List SessionStep) (s : ClientSession),
      exec (ClientSession.next fs) always .connected steps = some s →
      ∀ l id path, .complete id true path ∈ s.events fs l →
        ClientSession.SentFile steps path ∧
          ((ClientSession.transferComplete mem true path false).isSome ↔
            (cString (Path.filename path)).length ≤ 74) := by
  constructor
  · intro fs dir connected t hr p env htime id path hreception h
    exact TransferSession.notice_isSome_iff (TransferSession.named_of_reach hr) htime hreception h
      mem
  · intro fs steps s hrun l id path h
    refine ⟨?_, ClientSession.transferComplete_isSome_iff mem path⟩
    obtain ⟨key, context, hfind, rfl⟩ := ClientSession.find?_of_complete h
    rcases ClientSession.sentFile_of_exec steps hrun hfind with ⟨before, hbefore, -⟩ | hsent
    · cases hbefore
    · exact hsent

/-- A file of one byte is announced under `name`, and its chunk completes the reception. -/
theorem exists_complete {name : Path} (hname : Path.filename name = name) (hzero : 0 ∉ name)
    (hlen : name.length < sizeofFilename) :
    ∃ (t : TransferSession.Run) (p : List UInt8),
      Reach (traced TransferSession.next) TransferSession.TimeFits
        (TransferSession.start .empty [0x2E] true) t ∧
      TransferSession.isReception t.history 1 = true ∧
      TransferSession.announced t.history 1 = name ∧
      .complete 1 true ([0x2E] ++ 0x2F :: name) ∈ t.state.events (.packet p .calm) := by
  obtain ⟨request, hrequest⟩ : ∃ p, createFileRequestPacket (fun _ => 0) name 1 defaultChunkSize =
      some p := ⟨_, if_pos (by rwa [hname])⟩
  obtain ⟨hid, hfilename, hsize, -⟩ := read_createFileRequestPacket (hname.symm ▸ hzero) hrequest
  have hone : FileHeader.fileSize request = 1 := hsize
  rw [hname] at hfilename
  obtain ⟨hstart, fs, hs, hfile⟩ := TransferSession.receive_request_calm
    (TransferSession.start .empty [0x2E] true).state hid (by omega) (by omega)
  have hpath : receivePath [0x2E] request = [0x2E] ++ 0x2F :: name :=
    congrArg (fun name => [0x2E] ++ 0x2F :: name) hfilename
  have hnext := TransferSession.traced_packet (TransferSession.start .empty [0x2E] true) hs
  have hlast : ∀ {s : TransferSession}, (TransferSession.start .empty [0x2E] true).state.receive
      request .calm = s → s.latest? = some (1, .receiving (receivePath [0x2E] request) request) ∧
        s.fs.files (receivePath [0x2E] request) =
          some (List.replicate (FileHeader.fileSize request) 0) := by
    rintro _ rfl
    rw [hs]
    exact ⟨rfl, hfile⟩
  obtain ⟨hlast, hfile⟩ := hlast hs
  obtain ⟨p, hp, hread⟩ := TransferSession.exists_lastChunk
  obtain ⟨-, -, -, hevents, -⟩ := TransferSession.receive_chunk_calm _ hp hlast
    (parentPath_receivePath _ _) hfile List.length_replicate (by rw [hread]; rfl)
    (by rw [hread]; show 0 * defaultChunkSize + 1 ≤ FileHeader.fileSize request; omega)
    (by show FileHeader.fileSize request < 2 ^ 63; omega)
  refine ⟨_, p, .step _ _ _ .start ?_ hnext, TransferSession.isReception_of_request hstart _,
    (TransferSession.announced_of_request hstart _).trans hfilename, ?_⟩
  · intro q env hq
    obtain ⟨-, rfl⟩ := TransferStep.packet.inj hq
    exact Nat.two_pow_pos 63
  · rw [hevents, if_pos, show FileTransferContext.filePath _ = receivePath [0x2E] request from rfl,
      hpath]
    · exact List.mem_singleton_self _
    · unfold FileTransferContext.closedBy
      rw [hread]
      rfl

/-- An empty file is sent, and complete with the call of SendNextChunk in its SendFile. -/
theorem exists_sent {name : Path} (hlen : (Path.filename name).length < sizeofFilename) :
    let fs := FileSystem.empty.setFile name []
    ∃ s, exec (ClientSession.next fs) always .connected [.sendFile name (fun _ => 0) false false] =
        some s ∧
      .complete 1 true name ∈ s.events fs (.firstChunk 1 (fun _ => 0) .none) := by
  intro fs
  have hfile : fs.files name = some [] := FileSystem.files_setFile_self ..
  have hnext := ClientSession.connected.next_sendFile_of_file (fun _ => 0) hfile (by decide) hlen
  refine ⟨_, by rw [exec_cons trivial hnext, exec], ?_⟩
  have hfind : (ClientSession.connected.manager.bump.setContext 1
      (contextAfter name 0 defaultChunkSize 0)).transfers.find? 1 =
        some (contextAfter name 0 defaultChunkSize 0) :=
    FileTransferManager.find?_setContext_self ..
  have hsend := sendNextChunk_of_empty (fun _ => 0) hfile (by decide)
    (FileTransferManager.findTransfer_of_find? hfind)
  unfold ClientSession.events
  dsimp only
  rw [if_pos (show 1 ∈ ClientSession.connected.manager.nextConnectionId ::
    ClientSession.connected.sendFiles from List.mem_cons_self)]
  show _ ∈ (FileTransferManager.sendNextChunk fs _ 1 (fun _ => 0) .none).2.2
  exact (congrArg (fun r => r.2.2) hsend) ▸ List.mem_singleton_self _

/-- Names of letters only -/
def letters (n : Nat) : Path := List.replicate n 0x61

theorem filename_letters (n : Nat) : Path.filename (letters n) = letters n := by
  have hdrop : Path.dropDrive (letters n) = letters n := by
    match n with
    | 0 => rfl
    | 1 => rfl
    | n + 2 => rfl
  unfold Path.filename
  rw [hdrop, List.takeWhile_eq_self_iff.mpr, List.reverse_reverse]
  intro c hc
  rw [List.mem_reverse, letters, List.mem_replicate] at hc
  rw [hc.2]
  decide

theorem zero_not_mem_letters (n : Nat) : 0 ∉ letters n := fun h =>
  absurd (List.mem_replicate.mp h).2 (by decide)

/-- The longest names that fit, received and sent. -/
theorem completion_notices_iff_letters :
    (GameSession.transferComplete (fun _ => 0) true ([0x2E] ++ 0x2F :: letters 77)).isSome ∧
      (ClientSession.transferComplete (fun _ => 0) true (letters 74) false).isSome := by
  have hlaw := completion_notices_iff fun _ => 0
  have hshort : (letters 77).length < sizeofFilename := by decide
  obtain ⟨t, p, hr, hreception, hnames, hmem⟩ := exists_complete (filename_letters 77)
    (zero_not_mem_letters 77) hshort
  have hname := filename_letters 74
  have hlen : (Path.filename (letters 74)).length < sizeofFilename := by
    rw [hname]
    decide
  obtain ⟨s, hrun, hmem'⟩ := exists_sent hlen
  have htime : TransferSession.TimeFits t (.packet p .calm) := fun q env hq => by
    obtain ⟨-, rfl⟩ := TransferStep.packet.inj hq
    exact Nat.two_pow_pos 63
  refine ⟨(hlaw.1 _ _ _ t hr p .calm htime 1 _ hreception hmem).mpr (.inr ?_),
    (hlaw.2 _ _ s hrun _ 1 _ hmem').2.mpr ?_⟩
  · rw [hnames]
    decide
  · rw [hname]
    decide

/-- **A file whose name has 78 letters is received**, and its notice ends the server; **one whose
    name has 75 is sent**, and its notice ends the client. -/
theorem long_name_notices :
    (∃ (t : TransferSession.Run) (p : List UInt8),
      Reach (traced TransferSession.next) TransferSession.TimeFits
        (TransferSession.start .empty [0x2E] true) t ∧
      TransferSession.isReception t.history 1 = true ∧
      TransferSession.announced t.history 1 = letters 78 ∧
      .complete 1 true ([0x2E] ++ 0x2F :: letters 78) ∈ t.state.events (.packet p .calm) ∧
      GameSession.transferComplete (fun _ => 0) true ([0x2E] ++ 0x2F :: letters 78) = none) ∧
    ∃ fs s, exec (ClientSession.next fs) always .connected
        [.sendFile (letters 75) (fun _ => 0) false false] = some s ∧
      .complete 1 true (letters 75) ∈ s.events fs (.firstChunk 1 (fun _ => 0) .none) ∧
      ClientSession.transferComplete (fun _ => 0) true (letters 75) false = none := by
  constructor
  · have hshort : (letters 78).length < sizeofFilename := by decide
    obtain ⟨t, p, hr, hreception, hnames, hmem⟩ := exists_complete (filename_letters 78)
      (zero_not_mem_letters 78) hshort
    refine ⟨t, p, hr, hreception, hnames, hmem, ?_⟩
    rw [← Option.not_isSome_iff_eq_none, GameSession.transferComplete_isSome_iff,
      Path.filename_append [0x2E] (by decide)]
    decide
  · have hname := filename_letters 75
    have hlen : (Path.filename (letters 75)).length < sizeofFilename := by
      rw [hname]
      decide
    obtain ⟨s, hrun, hmem⟩ := exists_sent hlen
    refine ⟨_, s, hrun, hmem, ?_⟩
    rw [← Option.not_isSome_iff_eq_none, ClientSession.transferComplete_isSome_iff, hname]
    decide

end ServerCore
