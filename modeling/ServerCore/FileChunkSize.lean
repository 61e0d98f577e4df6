/-
  File:      ServerCore/FileChunkSize.lean
  Subject:   The chunk size of a transfer, on its two sides.

  StartFileSend takes the chunk size from its caller and announces the number of chunks it makes;
  SendNextChunk caps it; the receiver places every chunk by its own constant. The three agree only
  where one chunk holds the file, and for the constant itself while the chunks can be counted in 32
  bits (`chunk_size_law`).
-/
import ServerCore.FileContent

namespace ServerCore

open Seg LittleEndian

/-! ## 1. The two sides -/

/-- **The sides of a transfer agree**: the number of chunks the request announces is the number of
    packets of the completed transfer, and the receiver places each chunk where the sender read
    it. -/
structure SidesAgree (fs : FileSystem) (key : Nat) (m₁ : FileTransferManager)
    (request : List UInt8) : Prop where
  total : ∀ calls m context, TransferRun fs key m₁ calls m →
    m.transfers.find? key = some context → context.isCompleted = true →
    FileHeader.chunksTotal request = (packets calls.flatten).length
  offset : ∀ calls m, TransferRun fs key m₁ calls m →
    ∀ connectionId context mem p targetDir,
      m.findTransfer connectionId = some (key, context) →
      p ∈ packets (m.sendNextChunk fs connectionId mem .none).2.2 →
      chunkOffset (.read p) (.receiving (receivePath targetDir request) request) =
        context.bytesSent

/-- A packet that is sent first. -/
theorem mem_packets_of_send {r : Bool × FileTransferManager × List TransferEvent} {result : Bool}
    {m : FileTransferManager} {p : List UInt8} {events : List TransferEvent}
    (h : r = (result, m, .send p :: events)) : p ∈ packets r.2.2 := by
  rw [h]
  exact List.mem_cons_self

section Sides

variable {fs : FileSystem} {m₁ m : FileTransferManager} {key : Nat} {filePath : Path}
  {content : List UInt8} {chunkSize : Nat} {calls : List (List TransferEvent)}

/-- The number of packets after any number of calls. -/
theorem ChunkStream.length_packets {context : FileTransferContext}
    (hS : ChunkStream filePath content chunkSize calls context) :
    (packets calls.flatten).length = min calls.length (sliceCount content.length chunkSize) := by
  have h := congrArg List.length hS.slices
  rwa [List.length_map, List.length_map, List.length_range] at h

/-- A packet of the call number `j` is that of slice `j`. -/
theorem read_of_callEvents {j : Nat} {events : List TransferEvent}
    (h : CallEvents filePath content chunkSize j events) {p : List UInt8}
    (hp : p ∈ packets events) :
    j < sliceCount content.length chunkSize ∧
      FileChunk.read p = sliceChunk content chunkSize j := by
  obtain ⟨hread, -⟩ := packets_of_callEvents h
  have hmem : FileChunk.read p ∈ (packets events).map FileChunk.read := List.mem_map_of_mem hp
  rw [hread] at hmem
  split at hmem
  · rename_i hj
    exact ⟨hj, List.mem_singleton.mp hmem⟩
  · nomatch hmem

/-- Where the receiver places slice `j`, and where the sender reads it. -/
theorem chunkOffset_sliceChunk (j : Nat) (path : Path) (request : List UInt8) :
    chunkOffset (sliceChunk content chunkSize j) (.receiving path request) =
      u64 (u32 j * defaultChunkSize) := rfl

/-- Any number of calls can be made for the transfer. -/
theorem exists_transferRun (hfile : fs.files filePath = some content)
    (hlen : content.length < 2 ^ 64) (hc : 1 ≤ chunkSize)
    (hfind : m₁.transfers.find? key = some (contextAfter filePath content.length chunkSize 0))
    (mem : Memory) (j : Nat) :
    ∃ calls m, TransferRun fs key m₁ calls m ∧ calls.length = j := by
  induction j with
  | zero => exact ⟨[], m₁, .start, rfl⟩
  | succ j ih =>
      obtain ⟨calls, m, hr, hj⟩ := ih
      obtain ⟨hctx, -⟩ := hr.chunkStream hfile hlen hc hfind
      refine ⟨_, _, .own calls m _ key mem _ _ _ hr
        (FileTransferManager.findTransfer_of_find? hctx) rfl, ?_⟩
      rw [List.length_append, List.length_singleton, hj]

/-- **The sides agree exactly where the numbers do**: the announced number of chunks with the
    number of slices, and the receiver's offset with the sender's at each slice. -/
theorem sidesAgree_iff (hfile : fs.files filePath = some content) (hne : content ≠ [])
    (hlen : content.length < 2 ^ 64) (hc : 1 ≤ chunkSize)
    (hfind : m₁.transfers.find? key = some (contextAfter filePath content.length chunkSize 0))
    {request : List UInt8}
    (htotal : FileHeader.chunksTotal request = chunksTotal content.length chunkSize)
    (mem : Memory) :
    SidesAgree fs key m₁ request ↔
      chunksTotal content.length chunkSize = sliceCount content.length chunkSize ∧
        ∀ j < sliceCount content.length chunkSize,
          u64 (u32 j * defaultChunkSize) = j * sliceSize chunkSize := by
  have hpos : 0 < sliceCount content.length chunkSize := by
    rw [lt_sliceCount hc, Nat.zero_mul]
    exact List.length_pos_iff.mpr hne
  constructor
  · intro hA
    constructor
    · obtain ⟨calls, m, hr, hj⟩ := exists_transferRun hfile hlen hc hfind mem
        (sliceCount content.length chunkSize)
      obtain ⟨hctx, hS⟩ := hr.chunkStream hfile hlen hc hfind
      have hdone := hA.total calls m _ hr hctx (hS.isCompleted.mpr (by omega))
      rw [hS.length_packets] at hdone
      omega
    · intro j hj
      obtain ⟨calls, m, hr, rfl⟩ := exists_transferRun hfile hlen hc hfind mem j
      obtain ⟨hctx, hS⟩ := hr.chunkStream hfile hlen hc hfind
      have hown := FileTransferManager.findTransfer_of_find? hctx
      obtain ⟨p, hread, -, hsend⟩ := sendNextChunk_of_lt mem hfile hlen hc hown hj
      have hoff := hA.offset calls m hr key _ mem p [] hown (mem_packets_of_send hsend)
      rw [hread, chunkOffset_sliceChunk, hS.bytesSent] at hoff
      have hN := (lt_sliceCount hc calls.length).mp hj
      rwa [Nat.min_eq_left (Nat.le_of_lt hN)] at hoff
  · rintro ⟨hcount, hoffset⟩
    refine ⟨fun calls m context hr hctx hdone => ?_,
      fun calls m hr connectionId context mem p targetDir hown hp => ?_⟩
    · obtain ⟨hctx', hS⟩ := hr.chunkStream hfile hlen hc hfind
      obtain rfl := Option.some.inj (hctx.symm.trans hctx')
      have hall := hS.isCompleted.mp hdone
      rw [htotal, hcount, hS.length_packets, Nat.min_eq_right (by omega)]
    · obtain ⟨hctx, hS⟩ := hr.chunkStream hfile hlen hc hfind
      obtain rfl := Option.some.inj
        ((FileTransferManager.find?_of_findTransfer hown).symm.trans hctx)
      obtain ⟨hj, hread⟩ := read_of_callEvents
        (findTransfer_call mem hfile hlen hc hown).2 hp
      have hN := (lt_sliceCount hc calls.length).mp hj
      rw [hread, chunkOffset_sliceChunk, hoffset _ hj, hS.bytesSent,
        Nat.min_eq_left (Nat.le_of_lt hN)]

end Sides

/-! ## 2. The numbers -/

/-- With one slice there is nothing to disagree about. -/
theorem numbers_of_one_slice {n chunkSize : Nat} (hn : 1 ≤ n) (hle : n ≤ sliceSize chunkSize)
    (hc32 : chunkSize < 2 ^ 32) :
    sliceCount n chunkSize = 1 ∧ chunksTotal n chunkSize = 1 := by
  have hs : sliceSize chunkSize ≤ chunkSize := Nat.min_le_left _ _
  constructor
  · unfold sliceCount
    exact Nat.div_eq_of_lt_le (by omega) (by omega)
  · have hsum : u64 (n + chunkSize + 2 ^ 64 - 1) = n + chunkSize - 1 := by
      unfold u64
      omega
    unfold chunksTotal u32
    rw [hsum, Nat.div_eq_of_lt_le (k := 1) (by omega) (by omega)]
    rfl

/-- **The numbers agree** for a file in one slice, or with the receiver's own chunk size while
    the chunks can be counted in 32 bits. -/
theorem numbers_agree_iff {n chunkSize : Nat} (hn : 1 ≤ n) (hn64 : n < 2 ^ 64) (hc : 1 ≤ chunkSize)
    (hc32 : chunkSize < 2 ^ 32) :
    (chunksTotal n chunkSize = sliceCount n chunkSize ∧
        ∀ j < sliceCount n chunkSize, u64 (u32 j * defaultChunkSize) = j * sliceSize chunkSize) ↔
      n ≤ min chunkSize FileTransferContext.maxChunkSize ∨
        (chunkSize = defaultChunkSize ∧ n ≤ defaultChunkSize * (2 ^ 32 - 1)) := by
  have h4096 : defaultChunkSize = 4096 := rfl
  have hmax : FileTransferContext.maxChunkSize = 65504 := rfl
  have hslice : sliceSize chunkSize = min chunkSize FileTransferContext.maxChunkSize := rfl
  have hcount := fun j => lt_sliceCount (n := n) hc j
  constructor
  · rintro ⟨htotal, hoffset⟩
    by_cases hone : n ≤ sliceSize chunkSize
    · exact .inl hone
    -- the second slice fixes the chunk size, the count the number of chunks
    · have hsecond := hoffset 1 ((hcount 1).mpr (by omega))
      have hsize : sliceSize chunkSize = 4096 := by
        rw [← Nat.one_mul (sliceSize chunkSize), ← hsecond]
        rfl
      have hc4096 : chunkSize = 4096 := by omega
      refine .inr ⟨hc4096, ?_⟩
      have hlt : sliceCount n chunkSize < 2 ^ 32 := by
        rw [← htotal]
        exact Nat.mod_lt _ (by decide)
      have hlast := (hcount (2 ^ 32 - 1)).not.mp (by omega)
      omega
  · rintro (hone | ⟨rfl, hle⟩)
    · obtain ⟨hslices, htotal⟩ := numbers_of_one_slice hn hone hc32
      refine ⟨htotal.trans hslices.symm, fun j hj => ?_⟩
      obtain rfl : j = 0 := by omega
      rw [Nat.zero_mul]
      rfl
    · have hsize : sliceSize defaultChunkSize = 4096 := rfl
      have hlt : sliceCount n defaultChunkSize < 2 ^ 32 := by
        have hlast := (hcount (2 ^ 32 - 1)).not.mpr (by omega)
        omega
      constructor
      · have hsum : u64 (n + defaultChunkSize + 2 ^ 64 - 1) = n + defaultChunkSize - 1 := by
          unfold u64
          omega
        unfold chunksTotal
        rw [hsum]
        exact Nat.mod_eq_of_lt hlt
      · intro j hj
        have hj32 : u32 j = j := Nat.mod_eq_of_lt (by omega)
        rw [hj32, hsize, h4096]
        exact Nat.mod_eq_of_lt (by omega)

/-! ## 3. When the sides agree -/

/-- **When sender and receiver agree on the chunks.** A file is sent with any chunk size: they
    agree exactly where one chunk holds the file, or where the chunk size is the receiver's and the
    number of chunks fits 32 bits. -/
theorem chunk_size_law (fs : FileSystem) (m₀ m₁ : FileTransferManager) (filePath : Path)
    (content : List UInt8) (chunkSize : Nat) (mem : Memory) (openFails : Bool)
    (request : List UInt8) (hfile : fs.files filePath = some content) (hne : content ≠ [])
    (hlen : content.length < 2 ^ 64) (hc : 1 ≤ chunkSize) (hc32 : chunkSize < 2 ^ 32)
    (hstart : m₀.startFileSend fs filePath chunkSize mem openFails =
      some (true, m₁, [.send request])) :
    SidesAgree fs m₀.nextConnectionId m₁ request ↔
      content.length ≤ min chunkSize FileTransferContext.maxChunkSize ∨
        (chunkSize = defaultChunkSize ∧ content.length ≤ defaultChunkSize * (2 ^ 32 - 1)) := by
  have htotal : FileHeader.chunksTotal request = chunksTotal content.length chunkSize := by
    obtain ⟨hfalse, -⟩ | ⟨content', packet, hfile', -, -, hp, hsend, -⟩ :=
      FileTransferManager.startFileSend_cases hstart
    · nomatch hfalse
    · obtain rfl : content = content' := Option.some.inj (hfile.symm.trans hfile')
      obtain rfl : request = packet := by simpa using hsend
      have hlen64 : u64 content.length = content.length := Nat.mod_eq_of_lt hlen
      rw [hlen64] at hp
      exact chunksTotal_createFileRequestPacket hp
  rw [sidesAgree_iff hfile hne hlen hc (find?_of_startFileSend hfile hlen hstart) htotal mem,
    numbers_agree_iff (List.length_pos_iff.mpr hne) hlen hc hc32]

/-- A file of 5000 bytes goes out in two chunks of the default size. -/
theorem chunk_size_law_two_chunks :
    let content := List.replicate 5000 (7 : UInt8)
    let fs := FileSystem.empty.setFile [0x61] content
    sliceCount content.length defaultChunkSize = 2 ∧
      ∃ m₁ request, FileTransferManager.new.startFileSend fs [0x61] defaultChunkSize (fun _ => 0)
          false = some (true, m₁, [.send request]) ∧ SidesAgree fs 1 m₁ request := by
  intro content fs
  have hfile : fs.files [0x61] = some content := rfl
  have hlen : content.length = 5000 := List.length_replicate
  have h4096 : defaultChunkSize = 4096 := rfl
  have hne : content ≠ [] := List.ne_nil_of_length_pos (by omega)
  refine ⟨by rw [hlen]; decide, ?_⟩
  obtain ⟨request, -, hstart⟩ := startFileSend_of_file .new defaultChunkSize (fun _ => 0) hfile
    (by omega) (by decide)
  exact ⟨_, request, hstart, (chunk_size_law fs .new _ [0x61] content defaultChunkSize
    (fun _ => 0) false request hfile hne (by omega) (by decide) (by decide) hstart).mpr
      (.inr ⟨rfl, by omega⟩)⟩

/-- Two bytes in chunks of one: the second is read at offset 1 and will be written at 4096. -/
theorem chunk_size_disagreement :
    let fs := FileSystem.empty.setFile [0x61] [1, 2]
    ∃ m₁ m₂ m₃ request p₁ p₂ context,
      FileTransferManager.new.startFileSend fs [0x61] 1 (fun _ => 0) false =
        some (true, m₁, [.send request]) ∧
      m₁.sendNextChunk fs 1 (fun _ => 0) .none = (true, m₂, [.send p₁, .schedule 1]) ∧
      m₂.findTransfer 1 = some (1, context) ∧ context.bytesSent = 1 ∧
      m₂.sendNextChunk fs 1 (fun _ => 0) .none =
        (true, m₃, [.send p₂, .complete 1 true [0x61]]) ∧
      chunkOffset (.read p₂) (.receiving (receivePath [0x2E] request) request) = 4096 ∧
      ¬ SidesAgree fs 1 m₁ request := by
  intro fs
  have hfile : fs.files [0x61] = some [1, 2] := rfl
  obtain ⟨request, -, hstart⟩ := startFileSend_of_file .new 1 (fun _ => 0) hfile (by decide)
    (by decide)
  have hfind : ∀ (m : FileTransferManager) j,
      (m.setContext 1 (contextAfter [0x61] 2 1 j)).findTransfer 1 =
        some (1, contextAfter [0x61] 2 1 j) :=
    fun m j => FileTransferManager.findTransfer_of_find? (m.find?_setContext_self 1 _)
  obtain ⟨p₁, -, -, h₁⟩ := sendNextChunk_of_lt (fun _ => 0) hfile (by decide) (by decide)
    (hfind _ 0) (by decide)
  obtain ⟨p₂, hread, -, h₂⟩ := sendNextChunk_of_lt (fun _ => 0) hfile (by decide) (by decide)
    (hfind _ 1) (by decide)
  have hoff : chunkOffset (.read p₂) (.receiving (receivePath [0x2E] request) request) = 4096 := by
    rw [hread, chunkOffset_sliceChunk]
    rfl
  refine ⟨_, _, _, request, p₁, p₂, _, hstart, h₁, hfind _ 1, rfl, h₂, hoff, fun hA => ?_⟩
  have hagree := hA.offset _ _ (.own [] _ _ 1 _ _ _ _ .start (hfind _ 0) h₁) 1 _ (fun _ => 0) p₂
    [0x2E] (hfind _ 1) (mem_packets_of_send h₂)
  rw [hoff] at hagree
  exact absurd hagree (by decide)

end ServerCore
