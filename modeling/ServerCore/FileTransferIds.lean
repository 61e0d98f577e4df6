/-
  File:      ServerCore/FileTransferIds.lean
  Subject:   What the five functions of a FileTransferManager can do to its map of transfers, and
             the ids of the transfers.

  But for CancelTransfer they all do one of three things: nothing, an update of a context that is
  there (`Update`), or a new context under the next id (`Create`).

  The runs of a manager are all orders of its calls, each with a file system of its own. The id
  counter has 32 bits and contexts stay in the map, so ids are only ordered by age until it wraps
  (`NoWrap`): till then every id in use is below the next one (`idsBelow_of_reach`).
-/
import ServerCore.FileSend
import ServerCore.FileReceive
import ServerCore.Lib.Trans

namespace ServerCore

open Trans

namespace FileTransferManager

/-! ## 1. One call -/

/-- **What a call for a transfer does**: nothing, or an update of a context that is there. -/
inductive Update (m : FileTransferManager) : FileTransferManager → Prop where
  | keep : Update m m
  | assign (key : Nat) (context context' : FileTransferContext)
      (h : m.transfers.find? key = some context) : Update m (m.setContext key context')

/-- **What a call that may start a transfer does**: nothing, or a new context under the next id. -/
inductive Create (m : FileTransferManager) : FileTransferManager → Prop where
  | keep : Create m m
  | new (context : FileTransferContext) :
      Create m (m.bump.setContext m.nextConnectionId context)

theorem update_sendNextChunk (fs : FileSystem) (m : FileTransferManager) (connectionId : Nat)
    (mem : Memory) (faults : SendFaults) :
    m.Update (m.sendNextChunk fs connectionId mem faults).2.1 := by
  rcases sendNextChunk_cases fs m connectionId mem faults with e | ⟨key, context, context', hkey, e⟩
  · rw [e]
    exact .keep
  · rw [e]
    exact .assign key context context' (find?_of_findTransfer hkey)

theorem create_startFileSend {fs : FileSystem} {m m' : FileTransferManager} {filePath : Path}
    {chunkSize : Nat} {mem : Memory} {openFails result : Bool} {events : List TransferEvent}
    (h : m.startFileSend fs filePath chunkSize mem openFails = some (result, m', events)) :
    m.Create m' := by
  rcases startFileSend_cases h with ⟨-, rfl, -⟩ | ⟨content, packet, -, -, -, -, -, rfl⟩
  · exact .keep
  · exact .new _

end FileTransferManager

/-- **What `StartFileReceive` does to the manager**: nothing where it fails, and otherwise a new
    context under the next id. -/
theorem startFileReceive_cases (fs : FileSystem) (m : FileTransferManager) (targetDir : Path)
    (header : List UInt8) (faults : ReceiveFaults) :
    ((startFileReceive fs m targetDir header faults).1 = false ∧
        (startFileReceive fs m targetDir header faults).2.2 = m) ∨
      ((startFileReceive fs m targetDir header faults).1 = true ∧
        (startFileReceive fs m targetDir header faults).2.2 =
          m.bump.setContext m.nextConnectionId
            (.receiving (receivePath targetDir header) header)) := by
  unfold startFileReceive
  dsimp only
  split
  · exact .inl ⟨rfl, rfl⟩
  · split
    · exact .inl ⟨rfl, rfl⟩
    · split
      · exact .inl ⟨rfl, rfl⟩
      · exact .inr ⟨rfl, rfl⟩

/-- What `storeChunk` does to the manager. -/
theorem storeChunk_manager (m : FileTransferManager) (key : Nat) (file : OFStream)
    (fs : FileSystem) (context : FileTransferContext) (chunk : FileChunk) (faults : ChunkFaults) :
    ∃ context', context'.filePath = context.filePath ∧
      (storeChunk m key file fs context chunk faults).2.2.1 = m.setContext key context' := by
  unfold storeChunk
  dsimp only
  split
  · exact ⟨context, rfl, rfl⟩
  · split
    · exact ⟨{ context.received chunk with isCompleted := true }, rfl, rfl⟩
    · exact ⟨context.received chunk, rfl, rfl⟩

/-- **What `ProcessFileChunk` does to the manager**: an update of the context of the largest id. -/
theorem processFileChunk_manager (fs : FileSystem) (m : FileTransferManager) (chunk : FileChunk)
    (time : Nat) (faults : ChunkFaults) :
    (processFileChunk fs m chunk time faults).2.2.1 = m ∨
      ∃ key context context', m.transfers.rbegin? = some (key, context) ∧
        (processFileChunk fs m chunk time faults).2.2.1 = m.setContext key context' := by
  unfold processFileChunk
  split
  · exact .inl rfl
  · rename_i key context hlast
    dsimp only
    split
    · exact .inl rfl
    · split
      · exact .inl rfl
      · rename_i file fs' context' _
        obtain ⟨c, -, hc⟩ := storeChunk_manager m key file fs' context' chunk faults
        exact .inr ⟨key, context, c, hlast, hc⟩

namespace FileTransferManager

theorem create_startFileReceive (fs : FileSystem) (m : FileTransferManager) (targetDir : Path)
    (header : List UInt8) (faults : ReceiveFaults) :
    m.Create (startFileReceive fs m targetDir header faults).2.2 := by
  rcases startFileReceive_cases fs m targetDir header faults with ⟨-, e⟩ | ⟨-, e⟩
  · rw [e]
    exact .keep
  · rw [e]
    exact .new _

theorem update_processFileChunk (fs : FileSystem) (m : FileTransferManager) (chunk : FileChunk)
    (time : Nat) (faults : ChunkFaults) :
    m.Update (processFileChunk fs m chunk time faults).2.2.1 := by
  rcases processFileChunk_manager fs m chunk time faults with e | ⟨key, context, context', hlast, e⟩
  · rw [e]
    exact .keep
  · rw [e]
    exact .assign key context context' (OrdMap.rbegin?_eq_some_iff.mp hlast).1

/-! ## 2. Ids -/

/-- Every id in use is below the next one. -/
def IdsBelow (m : FileTransferManager) : Prop :=
  ∀ id context, m.transfers.find? id = some context → id < m.nextConnectionId

theorem idsBelow_new : FileTransferManager.new.IdsBelow := fun _ _ h => nomatch h

/-- An update keeps the ids, and the next one. -/
theorem IdsBelow.update {m m' : FileTransferManager} (hI : m.IdsBelow) (h : m.Update m') :
    m'.IdsBelow ∧ m'.nextConnectionId = m.nextConnectionId := by
  rcases h with _ | ⟨key, context, context', hkey⟩
  · exact ⟨hI, rfl⟩
  · refine ⟨fun id c hid => ?_, rfl⟩
    rcases find?_setContext_cases hid with ⟨rfl, -⟩ | hbefore
    · exact hI id context hkey
    · exact hI id c hbefore

/-- A start keeps the ids below the next one, unless the counter wraps. -/
theorem IdsBelow.create {m m' : FileTransferManager} (hI : m.IdsBelow)
    (hw : m.nextConnectionId + 1 < 2 ^ 32) (h : m.Create m') :
    m'.IdsBelow ∧ m'.nextConnectionId ≤ m.nextConnectionId + 1 := by
  rcases h with _ | ⟨context⟩
  · exact ⟨hI, Nat.le_succ _⟩
  · have hnext : (m.bump.setContext m.nextConnectionId context).nextConnectionId =
        m.nextConnectionId + 1 := Nat.mod_eq_of_lt hw
    refine ⟨fun id c hid => ?_, Nat.le_of_eq hnext⟩
    rw [hnext]
    rcases find?_setContext_cases hid with ⟨rfl, -⟩ | hbefore
    · exact Nat.lt_succ_self _
    · exact Nat.lt_succ_of_lt (hI id c hbefore)

/-- The context under the next id is the one of the largest id. -/
theorem IdsBelow.rbegin?_create {m : FileTransferManager} (hI : m.IdsBelow)
    (context : FileTransferContext) :
    (m.bump.setContext m.nextConnectionId context).transfers.rbegin? =
      some (m.nextConnectionId, context) :=
  m.transfers.rbegin?_insert_of_le context fun id c hid => Nat.le_of_lt (hI id c hid)

/-! ## 3. The calls of a manager -/

/-- A call, with what surrounds it. -/
inductive ManagerCall where
  | startFileSend (fs : FileSystem) (filePath : Path) (chunkSize : Nat) (mem : Memory)
      (openFails : Bool)
  | startFileReceive (fs : FileSystem) (targetDir : Path) (header : List UInt8)
      (faults : ReceiveFaults)
  | processFileChunk (fs : FileSystem) (chunk : FileChunk) (time : Nat) (faults : ChunkFaults)
  | sendNextChunk (fs : FileSystem) (connectionId : Nat) (mem : Memory) (faults : SendFaults)
  | cancelTransfer (connectionId : Nat)

/-- The manager after a call; `none`: the process ended in it. -/
def next (m : FileTransferManager) : ManagerCall → Option FileTransferManager
  | .startFileSend fs filePath chunkSize mem openFails =>
      (m.startFileSend fs filePath chunkSize mem openFails).map fun r => r.2.1
  | .startFileReceive fs targetDir header faults =>
      some (startFileReceive fs m targetDir header faults).2.2
  | .processFileChunk fs chunk time faults =>
      some (processFileChunk fs m chunk time faults).2.2.1
  | .sendNextChunk fs connectionId mem faults =>
      some (m.sendNextChunk fs connectionId mem faults).2.1
  | .cancelTransfer connectionId => some (m.cancelTransfer connectionId)

/-- The id counter does not wrap. -/
def NoWrap (m : FileTransferManager) : ManagerCall → Prop
  | .startFileSend .. | .startFileReceive .. => m.nextConnectionId + 1 < 2 ^ 32
  | .processFileChunk .. | .sendNextChunk .. | .cancelTransfer _ => True

/-- **An erasure**: the transfer is gone, and every other is as it was. -/
theorem find?_cancelTransfer (m : FileTransferManager) (connectionId id : Nat) :
    (m.cancelTransfer connectionId).transfers.find? id =
      if id = connectionId then none else m.transfers.find? id := by
  unfold cancelTransfer
  split
  · rename_i hnone
    split
    · rename_i h
      rw [h, hnone]
    · rfl
  · exact m.transfers.find?_erase connectionId id

theorem nextConnectionId_cancelTransfer (m : FileTransferManager) (connectionId : Nat) :
    (m.cancelTransfer connectionId).nextConnectionId = m.nextConnectionId := by
  unfold cancelTransfer
  split
  · rfl
  · rfl

/-- **What a call does to the map**: an update of a context that is there, a new context under the
    next id while the counter does not wrap, or an erasure. -/
inductive CallEffect (m : FileTransferManager) : FileTransferManager → Prop where
  | update (m' : FileTransferManager) (h : m.Update m') : CallEffect m m'
  | create (m' : FileTransferManager) (hw : m.nextConnectionId + 1 < 2 ^ 32) (h : m.Create m') :
      CallEffect m m'
  | cancel (connectionId : Nat) : CallEffect m (m.cancelTransfer connectionId)

theorem callEffect_of_next {m m' : FileTransferManager} {c : ManagerCall} (hok : m.NoWrap c)
    (hs : m.next c = some m') : m.CallEffect m' := by
  cases c with
  | startFileSend fs filePath chunkSize mem openFails =>
      obtain ⟨⟨result, m₁, events⟩, hstart, rfl⟩ := Option.map_eq_some_iff.mp hs
      exact .create _ hok (create_startFileSend hstart)
  | startFileReceive fs targetDir header faults =>
      obtain rfl := Option.some.inj hs
      exact .create _ hok (m.create_startFileReceive fs targetDir header faults)
  | processFileChunk fs chunk time faults =>
      obtain rfl := Option.some.inj hs
      exact .update _ (m.update_processFileChunk fs chunk time faults)
  | sendNextChunk fs connectionId mem faults =>
      obtain rfl := Option.some.inj hs
      exact .update _ (update_sendNextChunk fs m connectionId mem faults)
  | cancelTransfer connectionId =>
      obtain rfl := Option.some.inj hs
      exact .cancel connectionId

/-- The ids in use stay below the next one. -/
theorem IdsBelow.callEffect {m m' : FileTransferManager} (hI : m.IdsBelow)
    (h : m.CallEffect m') : m'.IdsBelow := by
  cases h with
  | update _ h => exact (hI.update h).1
  | create _ hw h => exact (hI.create hw h).1
  | cancel connectionId =>
      intro id context hfind
      rw [find?_cancelTransfer] at hfind
      rw [nextConnectionId_cancelTransfer]
      split at hfind
      · nomatch hfind
      · exact hI id context hfind

theorem idsBelow_of_reach {m : FileTransferManager} (hr : Reach next NoWrap .new m) :
    m.IdsBelow :=
  hr.invariant idsBelow_new fun _ _ _ hI hok hs => hI.callEffect (callEffect_of_next hok hs)

end FileTransferManager

end ServerCore
