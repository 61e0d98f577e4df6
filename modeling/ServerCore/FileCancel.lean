/-
  File:      ServerCore/FileCancel.lean
  Subject:   What a call of SendNextChunk touches, and what is left of it once its transfer is
             cancelled.

  A call works on the transfer of its id and, where that is not there, on the transfer 1 ("maybe
  it is the first transfer"): so a call that was scheduled before its transfer was cancelled goes
  on with the transfer 1. `send_next_chunk_law` says what it touches in each case; nothing else.
-/
import ServerCore.FileTransferIds

namespace ServerCore

open Seg Trans

namespace FileTransferManager

/-! ## 1. One call of SendNextChunk -/

/-- **The call touches only** the transfer `key`: the other contexts and the counter are as they
    were, and what is sent are chunk packets of the data that its own file holds at its own
    position. -/
structure TouchesOnly (fs : FileSystem) (m : FileTransferManager) (key : Nat)
    (context : FileTransferContext) (r : Bool × FileTransferManager × List TransferEvent) :
    Prop where
  others : ∀ id, id ≠ key → r.2.1.transfers.find? id = m.transfers.find? id
  counter : r.2.1.nextConnectionId = m.nextConnectionId
  data : ∀ p ∈ packets r.2.2, ∃ content, fs.files context.filePath = some content ∧
    (FileChunk.read p).chunkId = u32 context.chunksSent ∧
    (FileChunk.read p).data =
      grow 0 (slice content context.bytesSent context.currentChunkSize) context.currentChunkSize

/-- A chunk packet, as it is built for the context. -/
theorem packets_sendSlice {m : FileTransferManager} {key connectionId : Nat}
    {context : FileTransferContext} {content : List UInt8} {mem : Memory} {faults : SendFaults}
    {p : List UInt8}
    (hp : p ∈ packets (m.sendSlice key context content connectionId mem faults).2.2) :
    (FileChunk.read p).chunkId = u32 context.chunksSent ∧
      (FileChunk.read p).data =
        grow 0 (slice content context.bytesSent context.currentChunkSize)
          context.currentChunkSize := by
  generalize hbuffer : grow 0 (slice content context.bytesSent context.currentChunkSize)
    context.currentChunkSize = buffer
  have hlen : buffer.length = context.currentChunkSize := by
    rw [← hbuffer, length_grow, length_slice]
    omega
  have hmax : buffer.length ≤ FileTransferContext.maxChunkSize := by
    rw [hlen]
    exact Nat.min_le_right _ _
  unfold sendSlice at hp
  dsimp only at hp
  rw [hbuffer] at hp
  split at hp
  · nomatch hp
  · split at hp
    · nomatch hp
    · rename_i packet hcreate
      obtain rfl : p = packet := by
        split at hp
        · exact List.mem_singleton.mp hp
        · exact List.mem_singleton.mp hp
      have halloc : faults.alloc = false := by
        rw [← Bool.not_eq_true]
        intro h
        rw [h, createFileChunkPacket_of_allocFails] at hcreate
        nomatch hcreate
      obtain ⟨q, hq, -, hread⟩ := read_createFileChunkPacket mem context.chunksSent
        context.isLastChunk hmax
      rw [halloc, ← hlen] at hcreate
      obtain rfl := Option.some.inj (hcreate.symm.trans hq)
      rw [hread]
      exact ⟨rfl, rfl⟩

/-- What is sent is of the context that the call works on. -/
theorem packets_sendNextChunk {fs : FileSystem} {m : FileTransferManager} {key connectionId : Nat}
    {context : FileTransferContext} (hfind : m.findTransfer connectionId = some (key, context))
    {mem : Memory} {faults : SendFaults} {p : List UInt8}
    (hp : p ∈ packets (m.sendNextChunk fs connectionId mem faults).2.2) :
    ∃ content, fs.files context.filePath = some content ∧
      (FileChunk.read p).chunkId = u32 context.chunksSent ∧
      (FileChunk.read p).data =
        grow 0 (slice content context.bytesSent context.currentChunkSize)
          context.currentChunkSize := by
  unfold sendNextChunk at hp
  rw [hfind] at hp
  dsimp only at hp
  split at hp
  · nomatch hp
  · split at hp
    · nomatch hp
    · rename_i content hfile
      split at hp
      · nomatch hp
      · split at hp
        · nomatch hp
        · have hpacket := packets_sendSlice hp
          exact ⟨content, hfile, hpacket⟩

/-- **A call touches only the transfer it works on.** -/
theorem touchesOnly_sendNextChunk {fs : FileSystem} {m : FileTransferManager}
    {key connectionId : Nat} {context : FileTransferContext}
    (hfind : m.findTransfer connectionId = some (key, context)) (mem : Memory)
    (faults : SendFaults) :
    TouchesOnly fs m key context (m.sendNextChunk fs connectionId mem faults) := by
  refine ⟨fun id hne => ?_, ?_, fun p hp => packets_sendNextChunk hfind hp⟩
  · obtain e | ⟨key', context', after, hfind', e⟩ :=
      sendNextChunk_cases fs m connectionId mem faults
    · rw [e]
    · obtain ⟨rfl, rfl⟩ := Prod.mk.inj (Option.some.inj (hfind.symm.trans hfind'))
      rw [e, find?_setContext_of_ne m after hne]
  · rcases sendNextChunk_cases fs m connectionId mem faults with e | ⟨key', context', after, -, e⟩
    · rw [e]
    · rw [e]
      rfl

/-- A call for an id that is not there works on the transfer 1. -/
theorem findTransfer_of_none {m : FileTransferManager} {connectionId : Nat}
    (h : m.transfers.find? connectionId = none) :
    m.findTransfer connectionId = (m.transfers.find? 1).map fun context => (1, context) := by
  unfold findTransfer
  rw [h]

/-- A call that finds no transfer does nothing. -/
theorem sendNextChunk_of_none {fs : FileSystem} {m : FileTransferManager} {connectionId : Nat}
    (h : m.transfers.find? connectionId = none) (h1 : m.transfers.find? 1 = none) (mem : Memory)
    (faults : SendFaults) : m.sendNextChunk fs connectionId mem faults = (false, m, []) := by
  unfold sendNextChunk
  rw [findTransfer_of_none h, h1]
  rfl

/-! ## 2. After a cancellation -/

/-- The id was given out, and its transfer is gone. -/
structure Retired (m : FileTransferManager) (id : Nat) : Prop where
  absent : m.transfers.find? id = none
  given : id < m.nextConnectionId

/-- A transfer that is cancelled is gone for good, while the counter does not wrap. -/
theorem Retired.callEffect {m m' : FileTransferManager} {id : Nat} (hI : m.Retired id)
    (h : m.CallEffect m') : m'.Retired id := by
  cases h with
  | update _ h =>
      cases h with
      | keep => exact hI
      | assign key context context' hkey =>
          refine ⟨?_, hI.given⟩
          rw [find?_setContext_of_ne]
          · exact hI.absent
          · rintro rfl
            nomatch hI.absent.symm.trans hkey
  | create _ hw h =>
      cases h with
      | keep => exact hI
      | new context =>
          have hnext : (m.bump.setContext m.nextConnectionId context).nextConnectionId =
              m.nextConnectionId + 1 := Nat.mod_eq_of_lt hw
          refine ⟨?_, by rw [hnext]; exact Nat.lt_succ_of_lt hI.given⟩
          rw [find?_setContext_of_ne _ _ (Nat.ne_of_lt hI.given)]
          exact hI.absent
  | cancel connectionId =>
      refine ⟨?_, by rw [nextConnectionId_cancelTransfer]; exact hI.given⟩
      rw [find?_cancelTransfer]
      split
      · rfl
      · exact hI.absent

theorem retired_cancelTransfer {m : FileTransferManager} (hI : m.IdsBelow) {id : Nat}
    {context : FileTransferContext} (hfind : m.transfers.find? id = some context) :
    (m.cancelTransfer id).Retired id := by
  refine ⟨?_, ?_⟩
  · rw [find?_cancelTransfer, if_pos rfl]
  · rw [nextConnectionId_cancelTransfer]
    exact hI id context hfind

/-- **What SendNextChunk touches.** In every state of a manager, a call for an id that is there
    touches only its transfer, a call for another id touches only the transfer 1, and where that
    is not there either it does nothing. Hence after a cancellation, and any calls that follow, a
    call for the cancelled id touches nothing but the transfer 1, and without one does nothing. -/
theorem send_next_chunk_law (m : FileTransferManager) (hr : Reach next NoWrap .new m)
    (id : Nat) :
    (∀ fs mem faults,
      (∀ context, m.transfers.find? id = some context →
        TouchesOnly fs m id context (m.sendNextChunk fs id mem faults)) ∧
      (∀ context, m.transfers.find? id = none → m.transfers.find? 1 = some context →
        TouchesOnly fs m 1 context (m.sendNextChunk fs id mem faults)) ∧
      (m.transfers.find? id = none → m.transfers.find? 1 = none →
        m.sendNextChunk fs id mem faults = (false, m, []))) ∧
    ∀ context, m.transfers.find? id = some context →
      ∀ m', Reach next NoWrap (m.cancelTransfer id) m' → ∀ fs mem faults,
        (∀ context, m'.transfers.find? 1 = some context →
          TouchesOnly fs m' 1 context (m'.sendNextChunk fs id mem faults)) ∧
        (m'.transfers.find? 1 = none → m'.sendNextChunk fs id mem faults = (false, m', [])) := by
  have hfallback : ∀ (m : FileTransferManager) fs mem faults context,
      m.transfers.find? id = none → m.transfers.find? 1 = some context →
      TouchesOnly fs m 1 context (m.sendNextChunk fs id mem faults) := by
    intro m fs mem faults context hnone h1
    refine touchesOnly_sendNextChunk ?_ mem faults
    rw [findTransfer_of_none hnone, h1]
    rfl
  constructor
  · exact fun fs mem faults =>
      ⟨fun context hfind => touchesOnly_sendNextChunk (findTransfer_of_find? hfind) mem faults,
        fun context => hfallback m fs mem faults context,
        fun hnone h1 => sendNextChunk_of_none hnone h1 mem faults⟩
  · intro context hfind m' hr' fs mem faults
    have hretired : m'.Retired id := hr'.invariant (I := fun m => m.Retired id)
      (retired_cancelTransfer (idsBelow_of_reach hr) hfind)
      fun _ _ _ hI hok hs => hI.callEffect (callEffect_of_next hok hs)
    exact ⟨fun context h1 => hfallback m' fs mem faults context hretired.absent h1,
      fun h1 => sendNextChunk_of_none hretired.absent h1 mem faults⟩

/-- One more transfer is started. -/
theorem reach_startFileSend {m : FileTransferManager} (hr : Reach next NoWrap .new m)
    (hw : m.nextConnectionId + 1 < 2 ^ 32) {fs : FileSystem} {filePath : Path}
    {content : List UInt8} (hfile : fs.files filePath = some content)
    (hlen : content.length < 2 ^ 64) (hname : (Path.filename filePath).length < sizeofFilename) :
    Reach next NoWrap .new (m.bump.setContext m.nextConnectionId
      (contextAfter filePath content.length defaultChunkSize 0)) := by
  obtain ⟨packet, -, hstart⟩ := startFileSend_of_file m defaultChunkSize (fun _ => 0) hfile hlen
    hname
  refine .step m _ (.startFileSend fs filePath defaultChunkSize (fun _ => 0) false) hr hw ?_
  simp only [next, hstart, Option.map_some]

/-- The only transfer is cancelled: the call that was scheduled for it does nothing. -/
theorem send_next_chunk_law_cancelled :
    let fs := FileSystem.empty.setFile [0x61] [1, 2, 3]
    ∃ m, Reach next NoWrap .new m ∧ (m.transfers.find? 1).isSome = true ∧
      (m.cancelTransfer 1).sendNextChunk fs 1 (fun _ => 0) .none =
        (false, m.cancelTransfer 1, []) := by
  intro fs
  have hfile : fs.files [0x61] = some [1, 2, 3] := rfl
  have hr := reach_startFileSend .start (by decide) hfile (by decide) (by decide)
  refine ⟨_, hr, by simp [new], ?_⟩
  obtain ⟨-, hcancel⟩ := send_next_chunk_law _ hr 1
  refine (hcancel _ (find?_setContext_self _ _ _) _ .start _ _ _).2 ?_
  rw [find?_cancelTransfer, if_pos rfl]

/-- **A cancelled transfer goes on with the first**: of two transfers the second is cancelled, and
    the call that was scheduled for it sends the file of the first. -/
theorem cancelled_sends_first_transfer :
    let fs := (FileSystem.empty.setFile [0x61] [1, 2, 3]).setFile [0x62] [9]
    ∃ m p m', Reach next NoWrap .new m ∧ (m.transfers.find? 2).isSome = true ∧
      (m.cancelTransfer 2).sendNextChunk fs 2 (fun _ => 0) .none =
        (true, m', [.send p, .complete 2 true [0x61]]) ∧
      (FileChunk.read p).data = [1, 2, 3] ∧
      m'.transfers.find? 1 ≠ (m.cancelTransfer 2).transfers.find? 1 := by
  intro fs
  have hfile : fs.files [0x61] = some [1, 2, 3] := rfl
  have hfile' : fs.files [0x62] = some [9] := rfl
  have hr := reach_startFileSend (reach_startFileSend .start (by decide) hfile (by decide)
    (by decide)) (by decide) hfile' (by decide) (by decide)
  generalize hm : FileTransferManager.setContext _ _ (contextAfter [0x62] _ defaultChunkSize 0) = m
    at hr
  have h1 : (m.cancelTransfer 2).transfers.find? 1 =
      some (contextAfter [0x61] 3 defaultChunkSize 0) := by
    rw [find?_cancelTransfer, if_neg (by decide), ← hm, find?_setContext_of_ne _ _ (by decide)]
    exact find?_setContext_self _ _ _
  have h2 : (m.cancelTransfer 2).transfers.find? 2 = none := by
    rw [find?_cancelTransfer, if_pos rfl]
  have hfind : (m.cancelTransfer 2).findTransfer 2 =
      some (1, contextAfter [0x61] ([1, 2, 3] : List UInt8).length defaultChunkSize 0) := by
    rw [findTransfer_of_none h2, h1]
    rfl
  obtain ⟨p, hread, -, hsend⟩ := sendNextChunk_of_lt (fun _ => 0) hfile (by decide) (by decide)
    hfind (by decide)
  have hlast : 0 + 1 = sliceCount ([1, 2, 3] : List UInt8).length defaultChunkSize := by decide
  rw [if_pos hlast] at hsend
  refine ⟨m, p, _, hr, ?_, hsend, ?_, ?_⟩
  · rw [← hm]
    exact Option.isSome_iff_exists.mpr ⟨_, find?_setContext_self _ _ _⟩
  · rw [hread]
    rfl
  · rw [h1, find?_setContext_self]
    decide

end FileTransferManager

end ServerCore
