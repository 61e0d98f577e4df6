/-
  File:      ServerCore/FileSend.lean
  Subject:   The chunk stream of a transfer: what the calls of SendNextChunk for it hand to
             Session::Send, and when the completion callback is called.

  With `n` bytes to send and chunks of `m = min(chunkSize, 65504)` bytes, the context after `j`
  calls is a function of `j` (`contextAfter`): `min(j * m, n)` bytes sent, completed once `j`
  reaches `max(1, number of chunks)`. So a call emits chunk `j` or nothing, and duplicated chains
  of calls do no harm.

  * `read_createFileChunkPacket`: the packet carries the fields it was made of, its size without
    truncation.
  * `sendNextChunk_of_lt`: one call, while slices remain.
  * `sender_chunk_stream`: any number of calls for the transfer, among calls for others.
-/
import ServerCore.FileTransfer

namespace ServerCore

open Seg LittleEndian

/-! ## 1. The chunk packet -/

/-- A field in front of a splice does not see it. -/
theorem readLe_splice {p d : List UInt8} {i off w : Nat} (h : i + d.length ≤ p.length)
    (hd : off + w ≤ i) : readLe (splice p i d) off w = readLe p off w := by
  unfold readLe
  rw [slice_splice_of_disjoint h (.inl hd)]

/-- Without memory there is no packet. -/
theorem createFileChunkPacket_of_allocFails (mem : Memory) (data : List UInt8)
    (chunkSize chunkId : Nat) (isLast : Bool) :
    createFileChunkPacket mem data chunkSize chunkId isLast true = none := by
  unfold createFileChunkPacket
  dsimp only
  split
  · rfl
  · rw [if_pos rfl]

/-- **A chunk packet carries what it was made of**: the fields, the data, and a size that
    `uint16_t` holds. -/
theorem read_createFileChunkPacket (mem : Memory) {data : List UInt8} (chunkId : Nat)
    (isLast : Bool) (hsize : data.length ≤ FileTransferContext.maxChunkSize) :
    ∃ p, createFileChunkPacket mem data data.length chunkId isLast false = some p ∧
      p.length = sizeofFileChunk + data.length ∧
      FileChunk.read p = ⟨sizeofFileChunk + data.length, fileDataChunk, u32 chunkId,
        data.length, isLast, data⟩ := by
  have hmax : FileTransferContext.maxChunkSize = 65504 := rfl
  have h16 : sizeofFileChunk = 16 := rfl
  have hmod : u16 (sizeofFileChunk + data.length) = sizeofFileChunk + data.length := by
    unfold u16
    omega
  have hle : ¬ sizeofFileChunk + data.length > sendBufferChunkSize := by
    unfold sendBufferChunkSize
    omega
  simp only [createFileChunkPacket, hmod, if_neg hle, Bool.false_eq_true, if_false,
    List.take_length]
  -- the memory after each store, innermost first
  generalize hp0 : mem.reserve (sizeofFileChunk + data.length) = p0
  have l0 : p0.length = sizeofFileChunk + data.length := by
    rw [← hp0]
    exact mem.length_reserve _
  generalize hp1 : writeLe p0 0 2 (sizeofFileChunk + data.length) = p1
  have l1 : p1.length = p0.length := hp1 ▸ length_writeLe (by omega)
  generalize hp2 : writeLe p1 2 2 fileDataChunk = p2
  have l2 : p2.length = p0.length := hp2 ▸ (length_writeLe (by omega)).trans l1
  generalize hp3 : writeLe p2 4 4 chunkId = p3
  have l3 : p3.length = p0.length := hp3 ▸ (length_writeLe (by omega)).trans l2
  generalize hp4 : writeLe p3 8 4 data.length = p4
  have l4 : p4.length = p0.length := hp4 ▸ (length_writeLe (by omega)).trans l3
  generalize hp5 : writeLe p4 12 1 (if isLast then 1 else 0) = p5
  have l5 : p5.length = p0.length := hp5 ▸ (length_writeLe (by omega)).trans l4
  have hfit : sizeofFileChunk + data.length ≤ p5.length := by omega
  refine ⟨_, rfl, (length_splice hfit).trans (l5.trans l0), ?_⟩
  have hsizeField : readLe p5 0 2 = sizeofFileChunk + data.length := by
    rw [← hp5, readLe_writeLe_of_disjoint (by omega) (by omega), ← hp4,
      readLe_writeLe_of_disjoint (by omega) (by omega), ← hp3,
      readLe_writeLe_of_disjoint (by omega) (by omega), ← hp2,
      readLe_writeLe_of_disjoint (by omega) (by omega), ← hp1, readLe_writeLe (by omega)]
    omega
  have hidField : readLe p5 2 2 = fileDataChunk := by
    rw [← hp5, readLe_writeLe_of_disjoint (by omega) (by omega), ← hp4,
      readLe_writeLe_of_disjoint (by omega) (by omega), ← hp3,
      readLe_writeLe_of_disjoint (by omega) (by omega), ← hp2, readLe_writeLe (by omega)]
    rfl
  have hchunkId : readLe p5 4 4 = u32 chunkId := by
    rw [← hp5, readLe_writeLe_of_disjoint (by omega) (by omega), ← hp4,
      readLe_writeLe_of_disjoint (by omega) (by omega), ← hp3, readLe_writeLe (by omega)]
    rfl
  have hchunkSize : readLe p5 8 4 = data.length := by
    rw [← hp5, readLe_writeLe_of_disjoint (by omega) (by omega), ← hp4,
      readLe_writeLe (by omega)]
    omega
  have hisLast : (readLe p5 12 1 != 0) = isLast := by
    rw [← hp5, readLe_writeLe (by omega)]
    cases isLast <;> rfl
  have hdata : (splice p5 sizeofFileChunk data).drop sizeofFileChunk = data := by
    have h := slice_splice_self hfit
    unfold slice at h
    rwa [List.take_of_length_le (by
      rw [List.length_drop, length_splice hfit]
      omega)] at h
  unfold FileChunk.read
  rw [readLe_splice hfit (by omega), readLe_splice hfit (by omega),
    readLe_splice hfit (by omega), readLe_splice hfit (by omega), readLe_splice hfit (by omega),
    hsizeField, hidField, hchunkId, hchunkSize, hisLast, hdata]

/-! ## 2. One call -/

/-- The size of the slices a file is cut into: the chunk size under the cap. -/
def sliceSize (chunkSize : Nat) : Nat := min chunkSize FileTransferContext.maxChunkSize

/-- The number of slices of `n` bytes. -/
def sliceCount (n chunkSize : Nat) : Nat := (n + sliceSize chunkSize - 1) / sliceSize chunkSize

/-- The chunk packet of the slice `i`, as the receiver reads it. -/
def sliceChunk (content : List UInt8) (chunkSize i : Nat) : FileChunk :=
  let data := slice content (i * sliceSize chunkSize) (sliceSize chunkSize)
  ⟨sizeofFileChunk + data.length, fileDataChunk, u32 i, data.length,
    decide (i + 1 = sliceCount content.length chunkSize), data⟩

/-- The chunk packet of the slice `i` of `n` bytes, read while the file has the bytes `content`: in
    the place of bytes that are not there any more stand zeros. -/
def readChunk (n : Nat) (content : List UInt8) (chunkSize i : Nat) : FileChunk :=
  let size := min (sliceSize chunkSize) (n - i * sliceSize chunkSize)
  ⟨sizeofFileChunk + size, fileDataChunk, u32 i, size, decide (i + 1 = sliceCount n chunkSize),
    grow 0 (slice content (i * sliceSize chunkSize) size) size⟩

/-- **The context after `j` calls.** -/
def contextAfter (filePath : Path) (n chunkSize j : Nat) : FileTransferContext :=
  let done := decide (max 1 (sliceCount n chunkSize) ≤ j)
  { filePath
    fileStream := !done
    fileSize := n
    bytesSent := min (j * sliceSize chunkSize) n
    chunkSize
    chunksTotal := chunksTotal n chunkSize
    chunksSent := u32 (min j (sliceCount n chunkSize))
    isCompleted := done }

/-- **The events of the call number `j`** (from 0) for a transfer: the packet of slice `j` and then
    the callback, if it is the last one, or the next call; with no slice left nothing, but for the
    first call for an empty file, which is the callback. -/
def CallEvents (filePath : Path) (content : List UInt8) (chunkSize j : Nat)
    (events : List TransferEvent) : Prop :=
  if j < sliceCount content.length chunkSize then
    ∃ p connectionId, FileChunk.read p = sliceChunk content chunkSize j ∧
      p.length = (FileChunk.read p).size ∧
      events = [.send p, if j + 1 = sliceCount content.length chunkSize then
        .complete connectionId true filePath else .schedule connectionId]
  else if content = [] ∧ j = 0 then ∃ connectionId, events = [.complete connectionId true filePath]
  else events = []

theorem sliceSize_pos {chunkSize : Nat} (hc : 1 ≤ chunkSize) : 0 < sliceSize chunkSize := by
  have hmax : FileTransferContext.maxChunkSize = 65504 := rfl
  unfold sliceSize
  omega

theorem lt_sliceCount {n chunkSize : Nat} (hc : 1 ≤ chunkSize) (j : Nat) :
    j < sliceCount n chunkSize ↔ j * sliceSize chunkSize < n := by
  have hpos := sliceSize_pos hc
  unfold sliceCount
  rw [← Nat.succ_le_iff, Nat.le_div_iff_mul_le hpos, Nat.succ_mul]
  omega

/-- The last slice is the one that reaches the end. -/
theorem succ_eq_sliceCount {n chunkSize j : Nat} (hc : 1 ≤ chunkSize)
    (hj : j < sliceCount n chunkSize) :
    j + 1 = sliceCount n chunkSize ↔ n ≤ (j + 1) * sliceSize chunkSize := by
  have h := lt_sliceCount (n := n) hc (j + 1)
  omega

/-- A slice of a file that has not changed. -/
theorem readChunk_length (content : List UInt8) (chunkSize i : Nat) :
    readChunk content.length content chunkSize i = sliceChunk content chunkSize i := by
  have htake : slice content (i * sliceSize chunkSize)
      (min (sliceSize chunkSize) (content.length - i * sliceSize chunkSize)) =
        slice content (i * sliceSize chunkSize) (sliceSize chunkSize) := by
    rw [← take_slice (Nat.min_le_left _ _), ← length_slice, List.take_length]
  unfold readChunk sliceChunk
  dsimp only
  rw [htake, length_slice, grow_of_le (Nat.le_of_eq (length_slice ..).symm)]

section Call

variable {fs : FileSystem} {m : FileTransferManager} {filePath : Path} {content : List UInt8}
  {n chunkSize connectionId key j : Nat}

/-- Once completed, a context stays as it is. -/
theorem contextAfter_succ_of_done (hc : 1 ≤ chunkSize)
    (h : max 1 (sliceCount n chunkSize) ≤ j) :
    contextAfter filePath n chunkSize (j + 1) = contextAfter filePath n chunkSize j := by
  have hN := lt_sliceCount (n := n) hc j
  have hsucc : (j + 1) * sliceSize chunkSize = j * sliceSize chunkSize + sliceSize chunkSize :=
    Nat.succ_mul j _
  have hbytes : min ((j + 1) * sliceSize chunkSize) n = min (j * sliceSize chunkSize) n := by
    omega
  have hsent : min (j + 1) (sliceCount n chunkSize) = min j (sliceCount n chunkSize) := by
    omega
  have hdone : max 1 (sliceCount n chunkSize) ≤ j + 1 := Nat.le_succ_of_le h
  simp only [contextAfter, hbytes, hsent, hdone, h]

/-- What the context says while slice `j` is still to be sent. -/
theorem remainingBytes_contextAfter (hn : n < 2 ^ 64) :
    (contextAfter filePath n chunkSize j).opened.remainingBytes = n - j * sliceSize chunkSize := by
  show u64 (n + 2 ^ 64 - min (j * sliceSize chunkSize) n) = _
  unfold u64
  omega

theorem currentChunkSize_contextAfter (hn : n < 2 ^ 64) :
    (contextAfter filePath n chunkSize j).opened.currentChunkSize =
      min (sliceSize chunkSize) (n - j * sliceSize chunkSize) := by
  unfold FileTransferContext.currentChunkSize
  rw [remainingBytes_contextAfter hn]
  show min (min _ chunkSize) FileTransferContext.maxChunkSize = _
  unfold sliceSize
  omega

theorem isLastChunk_contextAfter (hc : 1 ≤ chunkSize) (hn : n < 2 ^ 64)
    (hj : j < sliceCount n chunkSize) :
    (contextAfter filePath n chunkSize j).opened.isLastChunk =
      decide (j + 1 = sliceCount n chunkSize) := by
  unfold FileTransferContext.isLastChunk
  rw [remainingBytes_contextAfter hn, currentChunkSize_contextAfter hn, decide_eq_decide,
    succ_eq_sliceCount hc hj, Nat.succ_mul]
  omega

/-- The context while slices remain after slice `j`, and after the last one. -/
theorem advance_contextAfter (hc : 1 ≤ chunkSize) (hn : n < 2 ^ 64)
    (hj : j < sliceCount n chunkSize) :
    contextAfter filePath n chunkSize (j + 1) =
      if j + 1 = sliceCount n chunkSize then
        (contextAfter filePath n chunkSize j).opened.advance.finish
      else (contextAfter filePath n chunkSize j).opened.advance := by
  have hN := (lt_sliceCount hc j).mp hj
  have hcur : (contextAfter filePath n chunkSize j).opened.currentChunkSize =
      min (sliceSize chunkSize) (n - j * sliceSize chunkSize) := currentChunkSize_contextAfter hn
  have hbytes : min ((j + 1) * sliceSize chunkSize) n = u64 (min (j * sliceSize chunkSize) n +
      min (sliceSize chunkSize) (n - j * sliceSize chunkSize)) := by
    unfold u64
    rw [Nat.succ_mul]
    omega
  have hsent : u32 (min (j + 1) (sliceCount n chunkSize)) =
      u32 (u32 (min j (sliceCount n chunkSize)) + 1) := by
    unfold u32
    omega
  have hdone : decide (max 1 (sliceCount n chunkSize) ≤ j + 1) =
      decide (j + 1 = sliceCount n chunkSize) := by
    rw [decide_eq_decide]
    omega
  have hnot : decide (max 1 (sliceCount n chunkSize) ≤ j) = false := by
    rw [decide_eq_false_iff_not]
    omega
  unfold FileTransferContext.advance
  rw [hcur]
  unfold contextAfter FileTransferContext.opened FileTransferContext.finish
  simp only [hdone, hnot, hbytes, hsent]
  split
  · rename_i hl
    simp only [hl, decide_true, Bool.not_true]
  · rename_i hl
    simp only [hl, decide_false, Bool.not_false]

/-- A call for a completed transfer does nothing. -/
theorem sendNextChunk_of_done (mem : Memory)
    (hfind : m.findTransfer connectionId =
      some (key, contextAfter filePath content.length chunkSize j))
    (hdone : max 1 (sliceCount content.length chunkSize) ≤ j) :
    m.sendNextChunk fs connectionId mem .none = (true, m, []) := by
  have hcompleted : (contextAfter filePath content.length chunkSize j).isCompleted = true :=
    decide_eq_true hdone
  unfold FileTransferManager.sendNextChunk
  rw [hfind]
  exact if_pos hcompleted

theorem callEvents_of_done (hdone : max 1 (sliceCount content.length chunkSize) ≤ j) :
    CallEvents filePath content chunkSize j [] := by
  unfold CallEvents
  rw [if_neg (by omega), if_neg (by omega)]

/-- A call for a transfer that is not completed goes on to what remains: its stream is open. -/
theorem sendNextChunk_of_not_done (mem : Memory) (faults : SendFaults)
    (hfile : fs.files filePath = some content) (hn : n < 2 ^ 64)
    (hfind : m.findTransfer connectionId = some (key, contextAfter filePath n chunkSize j))
    (hnot : ¬ max 1 (sliceCount n chunkSize) ≤ j) :
    m.sendNextChunk fs connectionId mem faults =
      if n - j * sliceSize chunkSize = 0 then
        (true, m.setContext key (contextAfter filePath n chunkSize j).opened.finish,
          [.complete connectionId true filePath])
      else m.sendSlice key (contextAfter filePath n chunkSize j).opened content connectionId mem
        faults := by
  have hdone : decide (max 1 (sliceCount n chunkSize) ≤ j) = false := decide_eq_false hnot
  have hcompleted : ¬ (contextAfter filePath n chunkSize j).isCompleted = true :=
    Bool.eq_false_iff.mp hdone
  have hpath : (contextAfter filePath n chunkSize j).filePath = filePath := rfl
  have hstream : (contextAfter filePath n chunkSize j).fileStream = true := by
    show (!decide (max 1 (sliceCount n chunkSize) ≤ j)) = true
    rw [hdone]
    rfl
  unfold FileTransferManager.sendNextChunk
  rw [hfind]
  simp only [if_neg hcompleted, hpath, hfile, hstream, Bool.not_true, Bool.false_and,
    Bool.false_eq_true, if_false, remainingBytes_contextAfter hn]
  rfl

/-- The first call for an empty file completes it. -/
theorem sendNextChunk_of_empty (mem : Memory) (hfile : fs.files filePath = some [])
    (hc : 1 ≤ chunkSize)
    (hfind : m.findTransfer connectionId = some (key, contextAfter filePath 0 chunkSize 0)) :
    m.sendNextChunk fs connectionId mem .none =
      (true, m.setContext key (contextAfter filePath 0 chunkSize 1),
        [.complete connectionId true filePath]) := by
  have hN : ¬ 0 < sliceCount 0 chunkSize := by
    rw [lt_sliceCount hc]
    exact Nat.not_lt_zero _
  have hctx : (contextAfter filePath 0 chunkSize 0).opened.finish =
      contextAfter filePath 0 chunkSize 1 := by
    have hN0 : sliceCount 0 chunkSize = 0 := by omega
    simp [contextAfter, FileTransferContext.opened, FileTransferContext.finish, hN0]
  rw [sendNextChunk_of_not_done mem .none hfile (by decide) hfind (by simp), if_pos (by simp)]
  show (true, m.setContext key (contextAfter filePath 0 chunkSize 0).opened.finish, _) = _
  rw [hctx]

/-- **A slice is sent** where the read does not fail and there is memory for the packet. -/
theorem sendSlice_of_lt (m : FileTransferManager) (key connectionId : Nat) (mem : Memory)
    (content : List UInt8) {faults : SendFaults} (hread : faults.read = false)
    (halloc : faults.alloc = false) (hn : n < 2 ^ 64) (hc : 1 ≤ chunkSize)
    (hj : j < sliceCount n chunkSize) :
    ∃ p, FileChunk.read p = readChunk n content chunkSize j ∧
      p.length = (FileChunk.read p).size ∧
      m.sendSlice key (contextAfter filePath n chunkSize j).opened content connectionId mem faults =
        (true, m.setContext key (contextAfter filePath n chunkSize (j + 1)),
          [.send p, if j + 1 = sliceCount n chunkSize then .complete connectionId true filePath
            else .schedule connectionId]) := by
  have hN := (lt_sliceCount hc j).mp hj
  have hmax : sliceSize chunkSize ≤ FileTransferContext.maxChunkSize := Nat.min_le_right _ _
  have hpos : (contextAfter filePath n chunkSize j).opened.bytesSent = j * sliceSize chunkSize := by
    show min (j * sliceSize chunkSize) n = _
    omega
  have hsent : (contextAfter filePath n chunkSize j).opened.chunksSent = u32 j := by
    show u32 (min j (sliceCount n chunkSize)) = _
    rw [Nat.min_eq_left (by omega)]
  have hcur : (contextAfter filePath n chunkSize j).opened.currentChunkSize =
      min (sliceSize chunkSize) (n - j * sliceSize chunkSize) := currentChunkSize_contextAfter hn
  generalize hsize : min (sliceSize chunkSize) (n - j * sliceSize chunkSize) = size at hcur
  -- the buffer is as long as the slice, whatever of it could be read
  generalize hdata : grow 0 (slice content (j * sliceSize chunkSize) size) size = data
  have hdlen : data.length = size := by
    rw [← hdata, length_grow, length_slice]
    omega
  obtain ⟨p, hp, hplen, hfields⟩ := @read_createFileChunkPacket mem data (u32 j)
    (decide (j + 1 = sliceCount n chunkSize)) (by omega)
  rw [hdlen] at hp hplen hfields
  refine ⟨p, ?_, ?_, ?_⟩
  · unfold readChunk
    rw [hfields, hsize]
    dsimp only
    rw [hdata]
    unfold u32
    rw [Nat.mod_mod]
  · rw [hfields]
    exact hplen
  · rw [advance_contextAfter hc hn hj]
    unfold FileTransferManager.sendSlice
    simp only [hcur, hpos, hdata, hsent, isLastChunk_contextAfter hc hn hj, hread, halloc, hp]
    by_cases hl : j + 1 = sliceCount n chunkSize
    · simp only [hl, decide_true, if_true, Bool.false_eq_true, if_false]
      rfl
    · simp only [hl, decide_false, if_false, Bool.false_eq_true]

/-- The call that sends slice `j`. -/
theorem sendNextChunk_of_lt (mem : Memory) (hfile : fs.files filePath = some content)
    (hlen : content.length < 2 ^ 64) (hc : 1 ≤ chunkSize)
    (hfind : m.findTransfer connectionId =
      some (key, contextAfter filePath content.length chunkSize j))
    (hj : j < sliceCount content.length chunkSize) :
    ∃ p, FileChunk.read p = sliceChunk content chunkSize j ∧ p.length = (FileChunk.read p).size ∧
      m.sendNextChunk fs connectionId mem .none =
        (true, m.setContext key (contextAfter filePath content.length chunkSize (j + 1)),
          [.send p, if j + 1 = sliceCount content.length chunkSize then
            .complete connectionId true filePath else .schedule connectionId]) := by
  have hN := (lt_sliceCount hc j).mp hj
  obtain ⟨p, hread, hplen, hsend⟩ := @sendSlice_of_lt filePath content.length chunkSize j m key
    connectionId mem content .none rfl rfl hlen hc hj
  rw [readChunk_length] at hread
  refine ⟨p, hread, hplen, ?_⟩
  rw [sendNextChunk_of_not_done mem .none hfile hlen hfind (by omega), if_neg (by omega), hsend]

end Call

/-! ## 3. Any number of calls -/

/-- The packets handed to `Session::Send`. -/
def packets (events : List TransferEvent) : List (List UInt8) :=
  events.filterMap fun
    | .send p => some p
    | _ => none

/-- The calls of the completion callback. -/
def completions (events : List TransferEvent) : List TransferEvent :=
  events.filter fun
    | .complete _ _ _ => true
    | _ => false

/-- **The runs of a manager seen from the transfer `key`**: `calls` are the events of the calls of
    `SendNextChunk` that worked on it, in order. Between them other transfers are started and
    served, whatever fails there; none is given the id `key`. -/
inductive TransferRun (fs : FileSystem) (key : Nat) (m₁ : FileTransferManager) :
    List (List TransferEvent) → FileTransferManager → Prop where
  | start : TransferRun fs key m₁ [] m₁
  | own (calls : List (List TransferEvent)) (m m' : FileTransferManager) (connectionId : Nat)
      (mem : Memory) (result : Bool) (events : List TransferEvent) (context : FileTransferContext)
      (h : TransferRun fs key m₁ calls m)
      (hown : m.findTransfer connectionId = some (key, context))
      (hs : m.sendNextChunk fs connectionId mem .none = (result, m', events)) :
      TransferRun fs key m₁ (calls ++ [events]) m'
  | other (calls : List (List TransferEvent)) (m m' : FileTransferManager) (connectionId : Nat)
      (mem : Memory) (faults : SendFaults) (result : Bool) (events : List TransferEvent)
      (h : TransferRun fs key m₁ calls m)
      (hother : ∀ context, m.findTransfer connectionId ≠ some (key, context))
      (hs : m.sendNextChunk fs connectionId mem faults = (result, m', events)) :
      TransferRun fs key m₁ calls m'
  | startOther (calls : List (List TransferEvent)) (m m' : FileTransferManager) (filePath : Path)
      (chunkSize : Nat) (mem : Memory) (openFails result : Bool) (events : List TransferEvent)
      (h : TransferRun fs key m₁ calls m) (hid : m.nextConnectionId ≠ key)
      (hs : m.startFileSend fs filePath chunkSize mem openFails = some (result, m', events)) :
      TransferRun fs key m₁ calls m'

namespace FileTransferManager

@[simp] theorem find?_setContext_self (m : FileTransferManager) (key : Nat)
    (context : FileTransferContext) :
    (m.setContext key context).transfers.find? key = some context :=
  m.transfers.find?_insert_self key context

theorem find?_setContext_of_ne (m : FileTransferManager) {key id : Nat}
    (context : FileTransferContext) (h : id ≠ key) :
    (m.setContext key context).transfers.find? id = m.transfers.find? id :=
  m.transfers.find?_insert_of_ne context h

/-- What is found after a context was set is that context, or was found before. -/
theorem find?_setContext_cases {m : FileTransferManager} {key id : Nat}
    {context found : FileTransferContext}
    (h : (m.setContext key context).transfers.find? id = some found) :
    (id = key ∧ found = context) ∨ m.transfers.find? id = some found := by
  by_cases hid : id = key
  · rw [hid, find?_setContext_self] at h
    exact .inl ⟨hid, (Option.some.inj h).symm⟩
  · rw [find?_setContext_of_ne m context hid] at h
    exact .inr h

/-- A call for an id that is there works on its context. -/
theorem findTransfer_of_find? {m : FileTransferManager} {connectionId : Nat}
    {context : FileTransferContext} (h : m.transfers.find? connectionId = some context) :
    m.findTransfer connectionId = some (connectionId, context) := by
  unfold findTransfer
  rw [h]

theorem find?_of_findTransfer {m : FileTransferManager} {connectionId key : Nat}
    {context : FileTransferContext} (h : m.findTransfer connectionId = some (key, context)) :
    m.transfers.find? key = some context := by
  unfold findTransfer at h
  split at h
  · rename_i hc
    cases h
    exact hc
  · obtain ⟨c, hc, e⟩ := Option.map_eq_some_iff.mp h
    cases e
    exact hc

/-- **What a call of `SendNextChunk` can do**: nothing; fail once the stream is open; complete a
    transfer with nothing left; send the last slice, or one more. -/
inductive SendOutcome (m : FileTransferManager) (connectionId : Nat) :
    Bool × FileTransferManager × List TransferEvent → Prop where
  | nothing (result : Bool) : SendOutcome m connectionId (result, m, [])
  | failed (key : Nat) (context : FileTransferContext)
      (h : m.findTransfer connectionId = some (key, context)) :
      SendOutcome m connectionId (false, m.setContext key context.opened, [])
  | finished (key : Nat) (context : FileTransferContext)
      (h : m.findTransfer connectionId = some (key, context)) :
      SendOutcome m connectionId (true, m.setContext key context.opened.finish,
        [.complete connectionId true context.filePath])
  | last (key : Nat) (context : FileTransferContext) (packet : List UInt8)
      (h : m.findTransfer connectionId = some (key, context)) :
      SendOutcome m connectionId (true, m.setContext key context.opened.advance.finish,
        [.send packet, .complete connectionId true context.filePath])
  | more (key : Nat) (context : FileTransferContext) (packet : List UInt8)
      (h : m.findTransfer connectionId = some (key, context)) :
      SendOutcome m connectionId (true, m.setContext key context.opened.advance,
        [.send packet, .schedule connectionId])

theorem sendSlice_outcome {m : FileTransferManager} {connectionId key : Nat}
    {context : FileTransferContext} (h : m.findTransfer connectionId = some (key, context))
    (content : List UInt8) (mem : Memory) (faults : SendFaults) :
    m.SendOutcome connectionId
      (m.sendSlice key context.opened content connectionId mem faults) := by
  unfold sendSlice
  dsimp only
  split
  · exact .failed key context h
  · split
    · exact .failed key context h
    · rename_i packet _
      split
      · exact .last key context packet h
      · exact .more key context packet h

theorem sendNextChunk_outcome (fs : FileSystem) (m : FileTransferManager) (connectionId : Nat)
    (mem : Memory) (faults : SendFaults) :
    m.SendOutcome connectionId (m.sendNextChunk fs connectionId mem faults) := by
  unfold sendNextChunk
  cases hfind : m.findTransfer connectionId with
  | none => exact .nothing false
  | some r =>
      obtain ⟨key, context⟩ := r
      dsimp only
      split
      · exact .nothing true
      · split
        · exact .nothing false
        · rename_i content _
          split
          · exact .nothing false
          · split
            · exact .finished key context hfind
            · exact sendSlice_outcome hfind content mem faults

/-- The call brings the transfer of `context` to its end: the file is there and open, and nothing is
    left of it, or its last slice goes through. -/
def Completes (fs : FileSystem) (context : FileTransferContext) (faults : SendFaults) : Prop :=
  context.isCompleted = false ∧ (fs.files context.filePath).isSome = true ∧
    (context.fileStream = true ∨ faults.reopen = false) ∧
    (context.remainingBytes = 0 ∨
      faults.read = false ∧ faults.alloc = false ∧ context.isLastChunk = true)

theorem complete_mem_sendSlice_iff (m : FileTransferManager) (key connectionId : Nat)
    (context : FileTransferContext) (content : List UInt8) (mem : Memory) (faults : SendFaults)
    (id : Nat) (success : Bool) (path : Path) :
    .complete id success path ∈
        (m.sendSlice key context content connectionId mem faults).2.2 ↔
      (faults.read = false ∧ faults.alloc = false ∧ context.isLastChunk = true) ∧
        id = connectionId ∧ success = true ∧ context.filePath = path := by
  have hlen : (grow 0 (slice content context.bytesSent context.currentChunkSize)
      context.currentChunkSize).length = context.currentChunkSize := by
    rw [length_grow, length_slice]
    omega
  unfold sendSlice
  dsimp only
  generalize hdata : grow 0 (slice content context.bytesSent context.currentChunkSize)
    context.currentChunkSize = data at hlen
  cases hread : faults.read with
  | true => exact iff_of_false (List.not_mem_nil) fun h => absurd h.1.1 (by decide)
  | false =>
  cases halloc : faults.alloc with
  | true =>
      rw [createFileChunkPacket_of_allocFails]
      exact iff_of_false (List.not_mem_nil) fun h => absurd h.1.2.1 (by decide)
  | false =>
  obtain ⟨packet, hpacket, -⟩ := read_createFileChunkPacket mem context.chunksSent
    context.isLastChunk (Nat.le_trans (Nat.le_of_eq hlen) (Nat.min_le_right _ _))
  rw [hlen] at hpacket
  rw [hpacket, if_neg Bool.false_ne_true]
  dsimp only
  cases hlast : context.isLastChunk with
  | false => simp
  | true => simp [eq_comm]

/-- **Where a call of `SendNextChunk` reports the end of a transfer.** -/
theorem complete_mem_sendNextChunk_iff (fs : FileSystem) (m : FileTransferManager)
    (connectionId : Nat) (mem : Memory) (faults : SendFaults) (id : Nat) (success : Bool)
    (path : Path) :
    .complete id success path ∈ (m.sendNextChunk fs connectionId mem faults).2.2 ↔
      id = connectionId ∧ success = true ∧ ∃ key context,
        m.findTransfer connectionId = some (key, context) ∧ Completes fs context faults ∧
          context.filePath = path := by
  unfold sendNextChunk
  cases hfind : m.findTransfer connectionId with
  | none =>
      refine iff_of_false List.not_mem_nil ?_
      rintro ⟨-, -, key, context, h, -⟩
      cases h
  | some r =>
      obtain ⟨key, context⟩ := r
      have hcontext : (∃ k c, some (key, context) = some (k, c) ∧ Completes fs c faults ∧
          c.filePath = path) ↔ Completes fs context faults ∧ context.filePath = path :=
        ⟨fun ⟨k, c, h, hc⟩ => by cases h; exact hc, fun hc => ⟨key, context, rfl, hc⟩⟩
      rw [hcontext]
      unfold Completes
      dsimp only
      cases hdone : context.isCompleted with
      | true => simp
      | false =>
      cases hfile : fs.files context.filePath with
      | none => simp
      | some content =>
      rw [if_neg Bool.false_ne_true]
      dsimp only
      by_cases hopen : (!context.fileStream && faults.reopen) = true
      · rw [if_pos hopen]
        simp only [Bool.and_eq_true, Bool.not_eq_true'] at hopen
        simp [hopen.1, hopen.2]
      · rw [if_neg hopen]
        have hstream : context.fileStream = true ∨ faults.reopen = false := by
          cases hs : context.fileStream with
          | true => exact .inl rfl
          | false => exact .inr (by simpa [hs] using hopen)
        by_cases hleft : context.opened.remainingBytes = 0
        · have hleft' : context.remainingBytes = 0 := hleft
          rw [if_pos hleft, List.mem_singleton, TransferEvent.complete.injEq]
          simp only [hstream, hleft', Option.isSome_some, true_and, true_or]
          exact and_congr_right fun _ => and_congr_right fun _ => eq_comm
        · have hleft' : ¬ context.remainingBytes = 0 := hleft
          rw [if_neg hleft, complete_mem_sendSlice_iff]
          change (faults.read = false ∧ faults.alloc = false ∧ context.isLastChunk = true) ∧
            id = connectionId ∧ success = true ∧ context.filePath = path ↔ _
          simp only [hstream, hleft', Option.isSome_some, true_and, false_or]
          exact ⟨fun ⟨hslice, hid, hsuccess, hpath⟩ => ⟨hid, hsuccess, hslice, hpath⟩,
            fun ⟨hid, hsuccess, hslice, hpath⟩ => ⟨hslice, hid, hsuccess, hpath⟩⟩

/-- **What a call of `SendNextChunk` writes**: nothing, or the context it works on. -/
theorem sendNextChunk_cases (fs : FileSystem) (m : FileTransferManager) (connectionId : Nat)
    (mem : Memory) (faults : SendFaults) :
    (m.sendNextChunk fs connectionId mem faults).2.1 = m ∨
      ∃ key context context', m.findTransfer connectionId = some (key, context) ∧
        (m.sendNextChunk fs connectionId mem faults).2.1 = m.setContext key context' := by
  have h := m.sendNextChunk_outcome fs connectionId mem faults
  generalize m.sendNextChunk fs connectionId mem faults = r at h ⊢
  rcases h with _ | ⟨key, context, h⟩ | ⟨key, context, h⟩ | ⟨key, context, _, h⟩ |
    ⟨key, context, _, h⟩
  · exact .inl rfl
  all_goals exact .inr ⟨key, context, _, h, rfl⟩

theorem nextConnectionId_sendNextChunk (fs : FileSystem) (m : FileTransferManager)
    (connectionId : Nat) (mem : Memory) (faults : SendFaults) :
    (m.sendNextChunk fs connectionId mem faults).2.1.nextConnectionId = m.nextConnectionId := by
  have h := m.sendNextChunk_outcome fs connectionId mem faults
  generalize m.sendNextChunk fs connectionId mem faults = r at h ⊢
  cases h <;> rfl

/-- **What `StartFileSend` writes**: nothing, or a new context under the next id. -/
theorem startFileSend_cases {fs : FileSystem} {m m' : FileTransferManager} {filePath : Path}
    {chunkSize : Nat} {mem : Memory} {openFails result : Bool} {events : List TransferEvent}
    (h : m.startFileSend fs filePath chunkSize mem openFails = some (result, m', events)) :
    (result = false ∧ m' = m ∧ events = []) ∨
      ∃ content packet, fs.files filePath = some content ∧ openFails = false ∧ result = true ∧
        createFileRequestPacket mem filePath (u64 content.length) chunkSize = some packet ∧
        events = [.send packet] ∧
        m' = m.bump.setContext m.nextConnectionId
          ⟨filePath, true, u64 content.length, 0, chunkSize,
            chunksTotal (u64 content.length) chunkSize, 0, false⟩ := by
  unfold startFileSend at h
  split at h
  · cases h
    exact .inl ⟨rfl, rfl, rfl⟩
  · rename_i content hfile
    split at h
    · cases h
      exact .inl ⟨rfl, rfl, rfl⟩
    · rename_i hopen
      obtain ⟨packet, hp, e⟩ := Option.map_eq_some_iff.mp h
      cases e
      exact .inr ⟨content, packet, hfile, Bool.eq_false_iff.mpr hopen, rfl, hp, rfl, rfl⟩

end FileTransferManager

section Stream

variable {filePath : Path} {content : List UInt8} {chunkSize : Nat}

/-- What one call adds to the packets. -/
theorem packets_of_callEvents {j : Nat} {events : List TransferEvent}
    (h : CallEvents filePath content chunkSize j events) :
    (packets events).map FileChunk.read =
        (if j < sliceCount content.length chunkSize then [sliceChunk content chunkSize j] else []) ∧
      ∀ p ∈ packets events, p.length = (FileChunk.read p).size := by
  unfold CallEvents at h
  split at h
  · rename_i hj
    obtain ⟨p, connectionId, hread, hlen, rfl⟩ := h
    have hp : packets [.send p, if j + 1 = sliceCount content.length chunkSize then
        .complete connectionId true filePath else .schedule connectionId] = [p] := by
      split <;> rfl
    rw [hp, if_pos hj]
    refine ⟨congrArg (fun c => [c]) hread, fun q hq => ?_⟩
    rw [List.mem_singleton.mp hq]
    exact hlen
  · rename_i hj
    rw [if_neg hj]
    split at h
    · obtain ⟨connectionId, rfl⟩ := h
      exact ⟨rfl, fun _ hp => nomatch hp⟩
    · subst h
      exact ⟨rfl, fun _ hp => nomatch hp⟩

/-- What one call adds to the callbacks. -/
theorem completions_of_callEvents (hc : 1 ≤ chunkSize) {j : Nat} {events : List TransferEvent}
    (h : CallEvents filePath content chunkSize j events) :
    (completions events).length =
        (if j + 1 = max 1 (sliceCount content.length chunkSize) then 1 else 0) ∧
      ∀ e ∈ completions events, ∃ connectionId, e = .complete connectionId true filePath := by
  have hempty : content = [] ↔ sliceCount content.length chunkSize = 0 := by
    have h0 := lt_sliceCount (n := content.length) hc 0
    rw [← List.length_eq_zero_iff]
    omega
  unfold CallEvents at h
  split at h
  · rename_i hj
    obtain ⟨p, connectionId, -, -, rfl⟩ := h
    by_cases hl : j + 1 = sliceCount content.length chunkSize
    · rw [if_pos hl, if_pos (by omega)]
      refine ⟨rfl, fun e he => ⟨connectionId, List.mem_singleton.mp he⟩⟩
    · rw [if_neg hl, if_neg (by omega)]
      exact ⟨rfl, fun _ he => nomatch he⟩
  · rename_i hj
    split at h
    · rename_i h0
      obtain ⟨connectionId, rfl⟩ := h
      have := hempty.mp h0.1
      rw [if_pos (by omega)]
      exact ⟨rfl, fun e he => ⟨connectionId, List.mem_singleton.mp he⟩⟩
    · rename_i h0
      subst h
      rw [hempty] at h0
      rw [if_neg (by omega)]
      exact ⟨rfl, fun _ he => nomatch he⟩

/-- **The chunk stream of a transfer**, given the events of its calls and the context after them:
    call `j` has its events; so the packets are the slices in order, each as long as its size
    field says, no more bytes are sent than there are, and the callback is called once. -/
structure ChunkStream (filePath : Path) (content : List UInt8) (chunkSize : Nat)
    (calls : List (List TransferEvent)) (context : FileTransferContext) : Prop where
  perCall : ∀ j events, calls[j]? = some events → CallEvents filePath content chunkSize j events
  slices : (packets calls.flatten).map FileChunk.read =
    (List.range (min calls.length (sliceCount content.length chunkSize))).map
      (sliceChunk content chunkSize)
  length : ∀ p ∈ packets calls.flatten, p.length = (FileChunk.read p).size
  callbacks : (completions calls.flatten).length =
    if max 1 (sliceCount content.length chunkSize) ≤ calls.length then 1 else 0
  success : ∀ e ∈ completions calls.flatten,
    ∃ connectionId, e = .complete connectionId true filePath
  bytesSent : context.bytesSent = min (calls.length * sliceSize chunkSize) content.length
  bytesSent_le : context.bytesSent ≤ context.fileSize
  isCompleted : context.isCompleted = true ↔
    max 1 (sliceCount content.length chunkSize) ≤ calls.length

theorem chunkStream_start :
    ChunkStream filePath content chunkSize []
      (contextAfter filePath content.length chunkSize 0) where
  perCall _ _ h := nomatch h
  slices := by simp [packets]
  length _ h := nomatch h
  callbacks := by
    rw [if_neg (by simp)]
    rfl
  success _ h := nomatch h
  bytesSent := rfl
  bytesSent_le := Nat.min_le_right _ _
  isCompleted := by simp [contextAfter]

/-- One more call. -/
theorem ChunkStream.append (hc : 1 ≤ chunkSize) {calls : List (List TransferEvent)}
    {context : FileTransferContext} (hS : ChunkStream filePath content chunkSize calls context)
    {events : List TransferEvent} (h : CallEvents filePath content chunkSize calls.length events) :
    ChunkStream filePath content chunkSize (calls ++ [events])
      (contextAfter filePath content.length chunkSize (calls.length + 1)) := by
  obtain ⟨hread, hlen⟩ := packets_of_callEvents h
  obtain ⟨hcount, hsucc⟩ := completions_of_callEvents hc h
  have hflat : (calls ++ [events]).flatten = calls.flatten ++ events := by simp
  have hpk : packets (calls.flatten ++ events) = packets calls.flatten ++ packets events :=
    List.filterMap_append
  have hco : completions (calls.flatten ++ events) =
      completions calls.flatten ++ completions events := List.filter_append _ _
  refine
    { perCall := fun j ev hj => ?_
      slices := ?_
      length := fun p hp => ?_
      callbacks := ?_
      success := fun e he => ?_
      bytesSent := by rw [List.length_append]; rfl
      bytesSent_le := Nat.min_le_right _ _
      isCompleted := by simp [contextAfter] }
  · rcases Nat.lt_or_ge j calls.length with hlt | hge
    · rw [List.getElem?_append_left hlt] at hj
      exact hS.perCall j ev hj
    · rw [List.getElem?_append_right hge] at hj
      have hj0 : j - calls.length = 0 := by
        have := (List.getElem?_eq_some_iff.mp hj).1
        simp at this
        omega
      rw [hj0] at hj
      obtain rfl : events = ev := by simpa using hj
      have : j = calls.length := by omega
      rw [this]
      exact h
  · rw [hflat, hpk, List.map_append, hS.slices, hread, List.length_append, List.length_singleton]
    by_cases hj : calls.length < sliceCount content.length chunkSize
    · rw [if_pos hj, Nat.min_eq_left (by omega), Nat.min_eq_left (by omega), List.range_succ,
        List.map_append, List.map_singleton]
    · rw [if_neg hj, Nat.min_eq_right (by omega), Nat.min_eq_right (by omega), List.append_nil]
  · rw [hflat, hpk] at hp
    rcases List.mem_append.mp hp with hp | hp
    · exact hS.length p hp
    · exact hlen p hp
  · rw [hflat, hco, List.length_append, hS.callbacks, hcount, List.length_append,
      List.length_singleton]
    split <;> split <;> split <;> omega
  · rw [hflat, hco] at he
    rcases List.mem_append.mp he with he | he
    · exact hS.success e he
    · exact hsucc e he

end Stream

/-- The context `StartFileSend` creates is the one before the first call. -/
theorem contextAfter_zero {filePath : Path} {content : List UInt8} {chunkSize : Nat}
    (hlen : content.length < 2 ^ 64) :
    (⟨filePath, true, u64 content.length, 0, chunkSize, chunksTotal (u64 content.length) chunkSize,
      0, false⟩ : FileTransferContext) = contextAfter filePath content.length chunkSize 0 := by
  have hlen64 : u64 content.length = content.length := Nat.mod_eq_of_lt hlen
  have hnot : decide (max 1 (sliceCount content.length chunkSize) ≤ 0) = false := by simp
  unfold contextAfter
  rw [hlen64, hnot, Nat.zero_mul, Nat.zero_min, Nat.zero_min]
  rfl

/-- `StartFileSend` succeeds for a file whose name fits the header. -/
theorem startFileSend_of_file (m : FileTransferManager) (chunkSize : Nat) (mem : Memory)
    {fs : FileSystem} {filePath : Path} {content : List UInt8}
    (hfile : fs.files filePath = some content) (hlen : content.length < 2 ^ 64)
    (hname : (Path.filename filePath).length < sizeofFilename) :
    ∃ packet, createFileRequestPacket mem filePath content.length chunkSize = some packet ∧
      m.startFileSend fs filePath chunkSize mem false =
        some (true, m.bump.setContext m.nextConnectionId
          (contextAfter filePath content.length chunkSize 0), [.send packet]) := by
  have hlen64 : u64 content.length = content.length := Nat.mod_eq_of_lt hlen
  obtain ⟨packet, hp⟩ :
      ∃ packet, createFileRequestPacket mem filePath content.length chunkSize = some packet :=
    ⟨_, if_pos hname⟩
  refine ⟨packet, hp, ?_⟩
  rw [← contextAfter_zero hlen]
  unfold FileTransferManager.startFileSend
  simp only [hfile, Bool.false_eq_true, if_false, hlen64, hp, Option.map_some]

/-- **A successful `StartFileSend`** leaves its context under the id it took. -/
theorem find?_of_startFileSend {fs : FileSystem} {m₀ m₁ : FileTransferManager} {filePath : Path}
    {content : List UInt8} {chunkSize : Nat} {mem : Memory} {openFails : Bool}
    {events : List TransferEvent} (hfile : fs.files filePath = some content)
    (hlen : content.length < 2 ^ 64)
    (hstart : m₀.startFileSend fs filePath chunkSize mem openFails = some (true, m₁, events)) :
    m₁.transfers.find? m₀.nextConnectionId =
      some (contextAfter filePath content.length chunkSize 0) := by
  obtain ⟨hfalse, -⟩ | ⟨content', packet, hfile', -, -, -, -, rfl⟩ :=
    FileTransferManager.startFileSend_cases hstart
  · nomatch hfalse
  · obtain rfl : content = content' := Option.some.inj (hfile.symm.trans hfile')
    rw [FileTransferManager.find?_setContext_self, contextAfter_zero hlen]

/-- **The call number `j`**: a completed transfer stays, an empty file is completed, or one more
    slice is sent. -/
theorem findTransfer_call {fs : FileSystem} {m : FileTransferManager} {connectionId key : Nat}
    {filePath : Path} {content : List UInt8} {chunkSize j : Nat} (mem : Memory)
    (hfile : fs.files filePath = some content) (hlen : content.length < 2 ^ 64)
    (hc : 1 ≤ chunkSize) (hown : m.findTransfer connectionId =
      some (key, contextAfter filePath content.length chunkSize j)) :
    (m.sendNextChunk fs connectionId mem .none).2.1.transfers.find? key =
        some (contextAfter filePath content.length chunkSize (j + 1)) ∧
      CallEvents filePath content chunkSize j
        (m.sendNextChunk fs connectionId mem .none).2.2 := by
  by_cases hdone : max 1 (sliceCount content.length chunkSize) ≤ j
  · rw [sendNextChunk_of_done mem hown hdone, contextAfter_succ_of_done hc hdone]
    exact ⟨FileTransferManager.find?_of_findTransfer hown, callEvents_of_done hdone⟩
  · by_cases hj : j < sliceCount content.length chunkSize
    · obtain ⟨p, hread, hplen, hsend⟩ := sendNextChunk_of_lt mem hfile hlen hc hown hj
      rw [hsend]
      refine ⟨FileTransferManager.find?_setContext_self .., ?_⟩
      unfold CallEvents
      rw [if_pos hj]
      exact ⟨p, connectionId, hread, hplen, rfl⟩
    · have hN := lt_sliceCount (n := content.length) hc 0
      have hz : content = [] := List.length_eq_zero_iff.mp (by omega)
      subst hz
      obtain rfl : j = 0 := by omega
      rw [sendNextChunk_of_empty mem hfile hc hown]
      refine ⟨FileTransferManager.find?_setContext_self .., ?_⟩
      unfold CallEvents
      rw [if_neg (by omega), if_pos ⟨rfl, rfl⟩]
      exact ⟨connectionId, rfl⟩

/-- **The context and the stream, over the runs of the manager**: after any calls, the context is
    the one after so many calls. -/
theorem TransferRun.chunkStream {fs : FileSystem} {m₁ m : FileTransferManager} {key : Nat}
    {filePath : Path} {content : List UInt8} {chunkSize : Nat} {calls : List (List TransferEvent)}
    (hfile : fs.files filePath = some content) (hlen : content.length < 2 ^ 64)
    (hc : 1 ≤ chunkSize)
    (hfind : m₁.transfers.find? key = some (contextAfter filePath content.length chunkSize 0))
    (hr : TransferRun fs key m₁ calls m) :
    m.transfers.find? key = some (contextAfter filePath content.length chunkSize calls.length) ∧
      ChunkStream filePath content chunkSize calls
        (contextAfter filePath content.length chunkSize calls.length) := by
  induction hr with
  | start => exact ⟨hfind, chunkStream_start⟩
  | own calls m m' connectionId mem result events context h hown hs ih =>
      obtain ⟨ihfind, ihS⟩ := ih
      have hctx : context = contextAfter filePath content.length chunkSize calls.length :=
        Option.some.inj ((FileTransferManager.find?_of_findTransfer hown).symm.trans ihfind)
      rw [hctx] at hown
      obtain ⟨hfind', hcall⟩ := findTransfer_call mem hfile hlen hc hown
      rw [hs] at hfind' hcall
      rw [List.length_append]
      exact ⟨hfind', ihS.append hc hcall⟩
  | other calls m m' connectionId mem faults result events h hother hs ih =>
      have hm : m' = (m.sendNextChunk fs connectionId mem faults).2.1 := by rw [hs]
      obtain e | ⟨key', context, context', hkey, e⟩ :=
        FileTransferManager.sendNextChunk_cases fs m connectionId mem faults
      · rw [hm, e]
        exact ih
      · have hne : key ≠ key' := fun h' => hother context (h' ▸ hkey)
        rw [hm, e, FileTransferManager.find?_setContext_of_ne m context' hne]
        exact ih
  | startOther calls m m' filePath' chunkSize' mem openFails result events h hid hs ih =>
      obtain ⟨-, rfl, -⟩ | ⟨content', packet, -, -, -, -, -, rfl⟩ :=
        FileTransferManager.startFileSend_cases hs
      · exact ih
      · rw [FileTransferManager.find?_setContext_of_ne m.bump _ (Ne.symm hid)]
        exact ih

/-- **The chunk stream of a transfer.** Whatever calls of `SendNextChunk` for it are made, in any
    number and among any others, they hand its slices to `Session::Send` in order and call the
    callback once, and the context says how far they are. -/
theorem sender_chunk_stream (fs : FileSystem) (m₀ m₁ : FileTransferManager) (filePath : Path)
    (content : List UInt8) (chunkSize : Nat) (mem : Memory) (openFails : Bool)
    (events : List TransferEvent) (hfile : fs.files filePath = some content)
    (hlen : content.length < 2 ^ 64) (hc : 1 ≤ chunkSize)
    (hstart : m₀.startFileSend fs filePath chunkSize mem openFails = some (true, m₁, events))
    (calls : List (List TransferEvent)) (m : FileTransferManager)
    (hr : TransferRun fs m₀.nextConnectionId m₁ calls m) :
    ∃ context, m.transfers.find? m₀.nextConnectionId = some context ∧
      ChunkStream filePath content chunkSize calls context :=
  ⟨_, hr.chunkStream hfile hlen hc (find?_of_startFileSend hfile hlen hstart)⟩

/-- Three bytes in chunks of two: two calls send them. -/
theorem sender_chunk_stream_two_slices :
    let fs := FileSystem.empty.setFile [0x61] [1, 2, 3]
    ∃ m₁ m₂ m₃ events events₁ events₂ context,
      FileTransferManager.new.startFileSend fs [0x61] 2 (fun _ => 0) false =
        some (true, m₁, events) ∧
      m₁.sendNextChunk fs 1 (fun _ => 0) .none = (true, m₂, events₁) ∧
      m₂.sendNextChunk fs 1 (fun _ => 0) .none = (true, m₃, events₂) ∧
      m₃.transfers.find? 1 = some context ∧
      ChunkStream [0x61] [1, 2, 3] 2 [events₁, events₂] context := by
  intro fs
  have hfile : fs.files [0x61] = some [1, 2, 3] := rfl
  obtain ⟨packet, -, hstart⟩ := startFileSend_of_file .new 2 (fun _ => 0)
    hfile (by decide) (by decide)
  have hfind : ∀ (m : FileTransferManager) j,
      (m.setContext 1 (contextAfter [0x61] 3 2 j)).findTransfer 1 =
        some (1, contextAfter [0x61] 3 2 j) :=
    fun m j => FileTransferManager.findTransfer_of_find? (m.find?_setContext_self 1 _)
  obtain ⟨p₁, -, -, h₁⟩ := sendNextChunk_of_lt (fun _ => 0) hfile
    (by decide) (by decide) (hfind _ 0) (by decide)
  obtain ⟨p₂, -, -, h₂⟩ := sendNextChunk_of_lt (fun _ => 0) hfile
    (by decide) (by decide) (hfind _ 1) (by decide)
  obtain ⟨context, hcontext, hS⟩ := sender_chunk_stream fs .new _ [0x61] [1, 2, 3] 2 (fun _ => 0)
    false _ hfile (by decide) (by decide) hstart _ _
    (.own [_] _ _ 1 _ _ _ _ (.own [] _ _ 1 _ _ _ _ .start (hfind _ 0) h₁) (hfind _ 1) h₂)
  exact ⟨_, _, _, _, _, _, _, hstart, h₁, h₂, hcontext, hS⟩

end ServerCore
