/-
  File:      ServerCore/FileCompletion.lean
  Subject:   When a session reports that a file was received, is it there?

  A reception is complete once a chunk with `isLast` is accepted, or as many chunks as the file
  has slices, of whatever numbers. On every run the completion that a chunk causes is sound, in
  that each position of the file has been written by a chunk of the transfer, exactly where the
  chunk closes a whole file (`completion_law`); `completion_of_two_bytes_unsound` is a file of two
  bytes that is complete after one.
-/
import ServerCore.TransferSession

namespace ServerCore

open Seg Trans

namespace TransferSession

/-! ## 1. The statement -/

/-- **The chunk `p` writes at the position `j`** of the file `path`, for the transfer `id`: it is
    accepted, what reaches the device of the data that is written covers the position, and its byte
    stands there afterwards. -/
structure WritesAt (s : TransferSession) (p : List UInt8) (env : Surroundings) (id : Nat)
    (path : Path) (j : Nat) : Prop where
  isChunk : packetId p = fileDataChunk
  accepted : (s.process p env).1 = true
  latest : ∃ context, s.latest? = some (id, context)
  written : ∃ w, chunkWrite s.fs s.manager (.read p) env.time env.chunk = some w ∧
    Path.SameFile w.path path ∧ w.offset ≤ j ∧
    j < w.offset + ((FileChunk.read p).written env.chunk).length ∧
    ∃ content, (s.receive p env).fs.files path = some content ∧
      content[j]? = ((FileChunk.read p).written env.chunk)[j - w.offset]?

/-- **A completion is sound**: with every callback of success for a reception, each position of its
    file has been written by a chunk that was accepted for it since its request. -/
def CompletesSoundly (t : Run) (p : List UInt8) (env : Surroundings) : Prop :=
  ∀ id path, isReception t.history id = true →
    .complete id true path ∈ t.state.events (.packet p env) →
      ∃ context, (t.state.receive p env).find? id = some context ∧ context.filePath = path ∧
        ∀ j < context.fileSize, ∃ s q env',
          (s, .packet q env') ∈ (t.state, .packet p env) :: since t.history id ∧
          s.WritesAt q env' id path j

/-- The chunk `p` is one that is accepted for the transfer `id`, where the file of its context is
    `path`. -/
structure AcceptsFor (s : TransferSession) (p : List UInt8) (env : Surroundings) (id : Nat)
    (path : Path) : Prop where
  isChunk : packetId p = fileDataChunk
  latest : ∃ context, s.latest? = some (id, context) ∧ Accepts s.fs context (.read p) env.chunk ∧
    Path.SameFile (chunkPath s.fs context env.time env.chunk) path

/-- Each slice of a file of `fileSize` bytes has a chunk among those received that is accepted for
    it, that is numbered no higher, and that reaches the end of the slice, or of the file. -/
def SlicesReceived (steps : List (TransferSession × TransferStep)) (id : Nat) (path : Path)
    (fileSize : Nat) : Prop :=
  ∀ k, defaultChunkSize * k < fileSize → ∃ s p env, (s, .packet p env) ∈ steps ∧
    AcceptsFor s p env id path ∧ (FileChunk.read p).chunkId ≤ k ∧
    min (defaultChunkSize * (k + 1)) fileSize ≤
      defaultChunkSize * (FileChunk.read p).chunkId +
        ((FileChunk.read p).written env.chunk).length

/-- **The chunk closes a whole file**: where it is accepted for a reception and carries `isLast` or
    brings the count to `chunksTotal`, no slice is without a chunk any more. -/
def ClosesWhole (t : Run) (p : List UInt8) (env : Surroundings) : Prop :=
  ∀ id context, isReception t.history id = true → packetId p = fileDataChunk →
    t.state.latest? = some (id, context) → Accepts t.state.fs context (.read p) env.chunk →
    context.closedBy (.read p) = true →
      SlicesReceived ((t.state, .packet p env) :: since t.history id) id
        (chunkPath t.state.fs context env.time env.chunk) context.fileSize

/-! ## 2. The slices of a reception -/

/-- **The invariant of a run**: the receptions cut their files at the default size, and did so since
    their requests. -/
structure CutsAtDefault (t : Run) (id : Nat) : Prop where
  now : ∀ context, t.state.find? id = some context → context.chunkSize = defaultChunkSize
  before : ∀ e ∈ since t.history id, ∀ context, e.1.find? id = some context →
    context.chunkSize = defaultChunkSize

theorem cutsAtDefault_step {t t' : Run} {l : TransferStep}
    (hI : ∀ id, isReception t.history id = true → CutsAtDefault t id)
    (hs : traced next t l = some t') (id : Nat) (hreception : isReception t'.history id = true) :
    CutsAtDefault t' id := by
  obtain ⟨hnext, hhistory⟩ := traced_eq_some_iff.mp hs
  rw [hhistory] at hreception
  by_cases hstart : t.state.started l = some id
  · obtain ⟨p, env, rfl⟩ := exists_packet_of_isReception hreception hstart
    refine ⟨fun context hfind => ?_, fun e he => ?_⟩
    · cases found_after hnext hfind with
      | requested => rfl
      | sending _ _ _ _ _ hl => cases hl
      | kept _ _ hnot | opened _ _ _ _ _ hnot | accepted _ _ _ _ _ hnot
      | continued _ _ _ _ _ _ hnot => exact absurd hstart hnot
    · rw [hhistory, since_of_started hstart] at he
      exact absurd he List.not_mem_nil
  · rw [isReception_of_ne hstart] at hreception
    obtain ⟨hnow, hbefore⟩ := hI id hreception
    refine ⟨fun context hfind => ?_, fun e he => ?_⟩
    · cases found_after hnext hfind with
      | requested _ _ _ h | sending _ _ _ _ _ _ h => exact absurd h hstart
      | kept _ hfind => exact hnow _ hfind
      | opened _ _ context _ hlast => exact hnow context (find?_of_latest? hlast)
      | accepted _ _ context _ hlast =>
          rw [context.chunkSize_accept]
          exact hnow context (find?_of_latest? hlast)
      | continued context _ hfind _ _ hchunk => exact hchunk.trans (hnow context hfind)
    · rw [hhistory, since_of_ne hstart] at he
      rcases List.mem_cons.mp he with rfl | he
      · exact hnow
      · exact hbefore e he

theorem cutsAtDefault_of_reach {ok : Run → TransferStep → Prop} {fs : FileSystem} {dir : Path}
    {connected : Bool} {t : Run} (hr : Reach (traced next) ok (start fs dir connected) t) (id : Nat)
    (h : isReception t.history id = true) : CutsAtDefault t id :=
  hr.invariant (I := fun t => ∀ id, isReception t.history id = true → CutsAtDefault t id)
    (fun id h => absurd (show isReception [] id = true from h) Bool.false_ne_true)
    (fun _ _ _ hI _ hs => cutsAtDefault_step hI hs) id h

/-- The number of a chunk times the chunk size fits 64 bits. -/
theorem chunkOffset_default (p : List UInt8) {context : FileTransferContext}
    (h : context.chunkSize = defaultChunkSize) :
    chunkOffset (.read p) context = defaultChunkSize * (FileChunk.read p).chunkId := by
  have hid : (FileChunk.read p).chunkId < 256 ^ 4 := LittleEndian.readLe_lt p 4 4
  unfold chunkOffset
  rw [h, Nat.mul_comm]
  unfold u64 defaultChunkSize
  omega

/-- **An accepted chunk writes its slice**, as far as its data reaches the device. -/
theorem writesAt_iff {s : TransferSession} {p : List UInt8} {env : Surroundings} {id : Nat}
    {path : Path} {j : Nat}
    (hcut : ∀ context, s.find? id = some context → context.chunkSize = defaultChunkSize) :
    s.WritesAt p env id path j ↔ s.AcceptsFor p env id path ∧
      defaultChunkSize * (FileChunk.read p).chunkId ≤ j ∧
      j < defaultChunkSize * (FileChunk.read p).chunkId +
        ((FileChunk.read p).written env.chunk).length := by
  constructor
  · rintro ⟨hchunk, haccepted, ⟨context, hlast⟩, w, hw, hpath, hle, hlt, -⟩
    obtain ⟨key, context', hlast', haccepts⟩ := processFileChunk_iff.mp haccepted
    obtain ⟨rfl, rfl⟩ := Prod.mk.inj (Option.some.inj (hlast.symm.trans hlast'))
    rw [chunkWrite_eq hw hlast] at hpath hle hlt
    rw [chunkOffset_default p (hcut context (find?_of_latest? hlast))] at hle hlt
    exact ⟨⟨hchunk, context, hlast, haccepts, hpath⟩, hle, hlt⟩
  · rintro ⟨⟨hchunk, context, hlast, haccepts, hpath⟩, hle, hlt⟩
    obtain ⟨w, hw⟩ := exists_chunkWrite_iff.mpr ⟨id, context, hlast, haccepts.canWrite⟩
    obtain ⟨content, hcontent, hslice⟩ := written_of_chunkWrite hw
    have hoffset := chunkOffset_default p (hcut context (find?_of_latest? hlast))
    rw [chunkWrite_eq hw hlast] at hcontent hslice hw
    refine ⟨hchunk, processFileChunk_iff.mpr ⟨id, context, hlast, haccepts⟩, ⟨context, hlast⟩, _,
      hw, hpath, hoffset ▸ hle, hoffset ▸ hlt, content, ?_, ?_⟩
    · rw [s.receive_chunk env hchunk]
      exact (FileSystem.files_congr _ hpath) ▸ hcontent
    · have hin : j - chunkOffset (.read p) context <
          ((FileChunk.read p).written env.chunk).length := by omega
      have hread := congrArg (fun l => l[j - chunkOffset (.read p) context]?) hslice
      dsimp only at hread
      rw [getElem?_slice, if_pos hin] at hread
      rw [← hread]
      congr 1
      omega

/-- Slices and positions say the same. -/
theorem slicesReceived_iff {steps : List (TransferSession × TransferStep)} {id : Nat}
    (path : Path) (fileSize : Nat) (hcut : ∀ e ∈ steps, ∀ context, e.1.find? id = some context →
      context.chunkSize = defaultChunkSize) :
    SlicesReceived steps id path fileSize ↔
      ∀ j < fileSize, ∃ s p env, (s, .packet p env) ∈ steps ∧ s.WritesAt p env id path j := by
  have hpos : 0 < defaultChunkSize := by decide
  have hblocks := @covered_iff_blocks (TransferSession × List UInt8 × Surroundings)
    (fun c => (c.1, .packet c.2.1 c.2.2) ∈ steps ∧ AcceptsFor c.1 c.2.1 c.2.2 id path)
    (fun c => defaultChunkSize * (FileChunk.read c.2.1).chunkId)
    (fun c => ((FileChunk.read c.2.1).written c.2.2.chunk).length) defaultChunkSize fileSize hpos
    fun c _ => ⟨_, rfl⟩
  simp only [Prod.exists, and_assoc, Nat.mul_le_mul_left_iff hpos] at hblocks
  unfold SlicesReceived
  rw [← hblocks]
  refine forall₂_congr fun j _ => exists_congr fun s => exists_congr fun p =>
    exists_congr fun env => and_congr_right fun hmem => ?_
  exact (writesAt_iff (hcut _ hmem)).symm

/-! ## 3. The law -/

/-- **When a session reports a file complete.** On every run, whatever is received, sent and
    cancelled in whatever order and whatever fails, the completion that a chunk causes is sound if
    and only if the chunk closes a whole file. -/
theorem completion_law (fs : FileSystem) (dir : Path) (connected : Bool) (t : Run)
    (hr : Reach (traced next) always (start fs dir connected) t) (p : List UInt8)
    (env : Surroundings) : CompletesSoundly t p env ↔ ClosesWhole t p env := by
  have hcut : ∀ id, isReception t.history id = true →
      ∀ e ∈ (t.state, TransferStep.packet p env) :: since t.history id, ∀ context,
        e.1.find? id = some context → context.chunkSize = defaultChunkSize := by
    intro id hid
    obtain ⟨hnow, hbefore⟩ := cutsAtDefault_of_reach hr id hid
    exact List.forall_mem_cons.mpr ⟨hnow, hbefore⟩
  constructor
  · intro hsound id context hid hp hlast haccepts hclosed
    obtain ⟨-, hevents⟩ := process_of_accepts env hlast haccepts
    rw [if_pos hclosed] at hevents
    obtain ⟨after, hafter, -, hwritten⟩ := hsound id _ hid (by
      show _ ∈ if packetId p = fileDataChunk then _ else _
      rw [if_pos hp, hevents]
      exact List.mem_singleton_self _)
    rw [slicesReceived_iff _ _ (hcut id hid)]
    obtain rfl := Option.some.inj (hafter.symm.trans (find?_of_accepts env hp hlast haccepts))
    rwa [FileTransferContext.fileSize_accept] at hwritten
  · intro hwhole id path hid hin
    change _ ∈ if packetId p = fileDataChunk then _ else _ at hin
    split at hin
    · rename_i hp
      obtain ⟨context, hlast, haccepts, hclosed, -, rfl⟩ := closes_of_complete hin
      refine ⟨_, find?_of_accepts env hp hlast haccepts,
        FileTransferContext.filePath_accept _ _ _, ?_⟩
      rw [FileTransferContext.fileSize_accept]
      exact (slicesReceived_iff _ _ (hcut id hid)).mp
        (hwhole id context hid hp hlast haccepts hclosed)
    · exact absurd hin List.not_mem_nil

/-! ## 4. A chunk of one byte, marked as the last -/

/-- After the request of a file of `n` bytes, a chunk of one byte that is marked as the last is
    accepted, and closes the reception. -/
theorem first_chunk_is_last {n : Nat} (h0 : 1 ≤ n) (hn : n < 2 ^ 63) :
    ∃ t p context, Reach (traced next) always (start .empty [0x2E] true) t ∧
      isReception t.history 1 = true ∧ since t.history 1 = [] ∧
      t.state.latest? = some (1, context) ∧ context.fileSize = n ∧
      packetId p = fileDataChunk ∧ (FileChunk.read p).chunkId = 0 ∧
      (FileChunk.read p).written .none = [7] ∧
      Accepts t.state.fs context (.read p) .none ∧ context.closedBy (.read p) = true ∧
      t.state.events (.packet p .calm) = [.complete 1 true [0x2E, 0x2F, 0x61]] := by
  obtain ⟨t, request, context, hid, hstart, hnext, hhistory, hm, hpath, hsize, hchunk, -, hfile⟩ :=
    exists_reception h0 hn
  obtain ⟨p, hp, hread⟩ := exists_lastChunk
  have hlast : t.state.latest? = some (1, context) := by
    unfold latest?
    rw [hm]
    rfl
  rw [← hpath] at hfile
  obtain ⟨haccepts, -, -, hevents, -⟩ := t.state.receive_chunk_calm hp hlast
    (hpath ▸ by decide) hfile (by rw [List.length_replicate, hsize]) (by rw [hread]; rfl)
    (by rw [hread]; dsimp only; omega) (by omega)
  have hclosed : context.closedBy (.read p) = true := by
    unfold FileTransferContext.closedBy
    rw [hread]
    rfl
  rw [if_pos hclosed, hpath] at hevents
  refine ⟨t, p, context, .step _ _ _ .start trivial hnext, ?_, ?_, hlast, hsize, hp, by rw [hread],
    by rw [hread]; rfl, haccepts, hclosed, hevents⟩
  · rw [hhistory]
    exact isReception_of_request hstart _
  · rw [hhistory]
    exact since_of_started hstart _

/-- One byte is all of a file of one byte. -/
theorem completion_law_one_byte :
    ∃ t p env, Reach (traced next) always (start .empty [0x2E] true) t ∧
      isReception t.history 1 = true ∧
      t.state.events (.packet p env) = [.complete 1 true [0x2E, 0x2F, 0x61]] ∧
      CompletesSoundly t p env := by
  obtain ⟨t, p, context, hr, hreception, -, hlast, hsize, hp, hid, hwritten, haccepts, -,
    hevents⟩ := first_chunk_is_last (n := 1) (by decide) (by decide)
  refine ⟨t, p, .calm, hr, hreception, hevents, (completion_law _ _ _ t hr p _).mpr ?_⟩
  intro id context' _ _ hlast' _ _ k hk
  obtain ⟨rfl, rfl⟩ := Prod.mk.inj (Option.some.inj (hlast.symm.trans hlast'))
  rw [hsize] at hk ⊢
  refine ⟨t.state, p, .calm, List.mem_cons_self, ⟨hp, context, hlast, haccepts, rfl⟩, ?_, ?_⟩
  · rw [hid]
    exact Nat.zero_le k
  · rw [show (FileChunk.read p).written Surroundings.calm.chunk = [7] from hwritten]
    exact (Nat.min_le_right _ _).trans (Nat.le_add_left _ _)

/-- **A file of two bytes is complete after one**: its first chunk is marked as the last. -/
theorem completion_of_two_bytes_unsound :
    ∃ t p env, Reach (traced next) always (start .empty [0x2E] true) t ∧
      isReception t.history 1 = true ∧ ¬ CompletesSoundly t p env := by
  obtain ⟨t, p, context, hr, hreception, hsince, hlast, hsize, hp, hid, hwritten, haccepts, -,
    hevents⟩ := first_chunk_is_last (n := 2) (by decide) (by decide)
  refine ⟨t, p, .calm, hr, hreception, fun hsound => ?_⟩
  obtain ⟨after, hafter, -, hall⟩ := hsound 1 _ hreception (by
    rw [hevents]
    exact List.mem_singleton_self _)
  have hsize' : after.fileSize = 2 := by
    have haccepted := find?_of_accepts .calm hp hlast haccepts
    obtain rfl := Option.some.inj (hafter.symm.trans haccepted)
    rw [FileTransferContext.fileSize_accept, hsize]
  rw [hsize', hsince] at hall
  -- nothing was written at the position 1
  obtain ⟨s, q, env', hmem, hwrites⟩ := hall 1 (by decide)
  obtain ⟨rfl, hstep⟩ := Prod.mk.inj (List.mem_singleton.mp hmem)
  obtain ⟨rfl, rfl⟩ := TransferStep.packet.inj hstep
  obtain ⟨hnow, -⟩ := cutsAtDefault_of_reach hr 1 hreception
  obtain ⟨-, -, hlt⟩ := (writesAt_iff hnow).mp hwrites
  rw [hid, show (FileChunk.read q).written Surroundings.calm.chunk = [7] from hwritten] at hlt
  exact absurd hlt (by decide)

end TransferSession

end ServerCore
