/-
  File:      ServerCore/FileAttribution.lean
  Subject:   Which file a chunk goes to, on a session with several transfers.

  A chunk does not say which transfer it was cut from; the receiver takes the context of the
  largest id, whatever that is for. On every run it is the transfer that was started last and not
  cancelled, by a request that was accepted or by a StartFileSend (`chunk_attribution`).
  So a chunk of an earlier transfer goes astray (`chunk_of_first_transfer_misplaced`).
-/
import ServerCore.TransferSession

namespace ServerCore

open Seg Trans

namespace TransferSession

/-! ## 1. One chunk -/

/-- `context'` is `context` further on: its file is the same, or the alternative that a chunk at
    the second `time` falls back on. -/
structure SameTransfer (context context' : FileTransferContext) (time : Nat) : Prop where
  filePath : context'.filePath = context.filePath ∨
    context'.filePath = alternativePath (Path.parentPath context.filePath) time
  chunkSize : context'.chunkSize = context.chunkSize

/-- **The chunk `p` goes to the transfer `id`.** -/
structure StoredIn (s : TransferSession) (p : List UInt8) (env : Surroundings) (id : Nat) :
    Prop where
  /-- The other transfers are as they were. -/
  others : ∀ id', id' ≠ id → (s.receive p env).find? id' = s.find? id'
  /-- Only the file of the transfer changes. The chunk is accepted where it can be written and no
      failure of the device shows in time; where it can be written, what of its data reaches the
      device (all of it, if that does not fail) stands in the file at the offset of the chunk. -/
  file : ∃ before after, s.find? id = some before ∧ (s.receive p env).find? id = some after ∧
    SameTransfer before after env.time ∧
    (∀ path, ¬ Path.SameFile path after.filePath →
      (s.receive p env).fs.files path = s.fs.files path) ∧
    ((s.process p env).1 = true ↔ Accepts s.fs before (.read p) env.chunk) ∧
    (CanWrite s.fs before (.read p) env.chunk →
      ∃ content, (s.receive p env).fs.files after.filePath = some content ∧
        slice content (chunkOffset (.read p) before) ((FileChunk.read p).written env.chunk).length =
          (FileChunk.read p).written env.chunk)

/-- The context that a chunk went to, afterwards: where a file was opened, that is its file. -/
theorem exists_after_chunk {s : TransferSession} {p : List UInt8} (env : Surroundings)
    (hp : packetId p = fileDataChunk) {id : Nat} {before : FileTransferContext}
    (hlast : s.latest? = some (id, before)) :
    ∃ after, (s.receive p env).find? id = some after ∧ SameTransfer before after env.time ∧
      (CanOpen s.fs before env.chunk →
        after.filePath = chunkPath s.fs before env.time env.chunk) := by
  have hpath := chunkPath_cases s.fs before env.time env.chunk
  unfold find?
  rw [s.receive_chunk env hp]
  have hout := processFileChunk_outcome s.fs s.manager (.read p) env.time env.chunk
  show ∃ after, (processFileChunk _ _ _ _ _).2.2.1.transfers.find? id = _ ∧ _
  generalize processFileChunk s.fs s.manager (.read p) env.time env.chunk = r at hout ⊢
  obtain ⟨result, fs', m', ev⟩ := r
  cases hout with
  | refused hnot =>
      exact ⟨before, find?_of_latest? hlast, ⟨.inl rfl, rfl⟩,
        fun hcan => absurd hcan (hnot id before hlast)⟩
  | failed key context hlast' =>
      obtain ⟨rfl, rfl⟩ := Prod.mk.inj (Option.some.inj (hlast.symm.trans hlast'))
      exact ⟨_, FileTransferManager.find?_setContext_self .., ⟨hpath, rfl⟩, fun _ => rfl⟩
  | accepted key context hlast' =>
      obtain ⟨rfl, rfl⟩ := Prod.mk.inj (Option.some.inj (hlast.symm.trans hlast'))
      refine ⟨_, FileTransferManager.find?_setContext_self .., ⟨?_, ?_⟩, fun _ => ?_⟩
      · rwa [FileTransferContext.filePath_accept]
      · exact FileTransferContext.chunkSize_accept ..
      · exact FileTransferContext.filePath_accept ..

/-- **One chunk** goes to the transfer of the largest id. -/
theorem storedIn_of_latest {s : TransferSession} {p : List UInt8} (env : Surroundings)
    (hp : packetId p = fileDataChunk) {id : Nat} {before : FileTransferContext}
    (hlast : s.latest? = some (id, before)) : s.StoredIn p env id := by
  obtain ⟨after, hafter, hsame, hpath⟩ := exists_after_chunk env hp hlast
  refine ⟨fun id' hne => find?_receive_chunk env hp fun key latest hkey => ?_, before, after,
    find?_of_latest? hlast, hafter, hsame, fun path hne => ?_, ?_, fun hcan => ?_⟩
  · obtain ⟨rfl, -⟩ := Prod.mk.inj (Option.some.inj (hlast.symm.trans hkey))
    exact hne
  · rw [s.receive_chunk env hp]
    by_cases hcan : CanOpen s.fs before env.chunk
    · refine processFileChunk_files fun key latest hkey => ?_
      obtain ⟨rfl, rfl⟩ := Prod.mk.inj (Option.some.inj (hlast.symm.trans hkey))
      rwa [← hpath hcan]
    · -- no file is opened
      have hnone : openedFile s.fs s.manager env.time env.chunk = none := by
        rw [Option.eq_none_iff_forall_not_mem]
        intro r hr
        obtain ⟨key, latest, hkey, hcan'⟩ := exists_openedFile_iff.mp ⟨r, hr⟩
        obtain ⟨rfl, rfl⟩ := Prod.mk.inj (Option.some.inj (hlast.symm.trans hkey))
        exact hcan hcan'
      obtain ⟨fs', hprocess, hfiles⟩ := processFileChunk_of_not_opened hnone (.read p)
      show (s.process p env).2.1.files path = _
      rw [show s.process p env = _ from hprocess]
      exact congrFun hfiles path
  · refine processFileChunk_iff.trans ⟨?_, fun h => ⟨id, before, hlast, h⟩⟩
    rintro ⟨key, latest, hkey, h⟩
    obtain ⟨rfl, rfl⟩ := Prod.mk.inj (Option.some.inj (hlast.symm.trans hkey))
    exact h
  · obtain ⟨w, hw⟩ := exists_chunkWrite_iff.mpr ⟨id, before, hlast, hcan⟩
    have hwritten := written_of_chunkWrite hw
    rw [chunkWrite_eq hw hlast] at hwritten
    rw [s.receive_chunk env hp, hpath hcan.canOpen]
    exact hwritten

/-! ## 2. The run -/

/-- The transfers that were started and not cancelled, the last one first. -/
def live : List (TransferSession × TransferStep) → List Nat
  | [] => []
  | (s, l) :: h =>
      match s.started l with
      | some id => id :: live h
      | none =>
          match l with
          | .cancelTransfer id => (live h).filter fun id' => decide (id' ≠ id)
          | _ => live h

theorem live_of_started {s : TransferSession} {l : TransferStep} {id : Nat}
    (hs : s.started l = some id) (h : List (TransferSession × TransferStep)) :
    live ((s, l) :: h) = id :: live h := by
  simp only [live, hs]

theorem live_of_cancel (s : TransferSession) (id : Nat)
    (h : List (TransferSession × TransferStep)) :
    live ((s, .cancelTransfer id) :: h) = (live h).filter fun id' => decide (id' ≠ id) := rfl

theorem live_of_none {s : TransferSession} {l : TransferStep} (hs : s.started l = none)
    (hl : ∀ id, l ≠ .cancelTransfer id) (h : List (TransferSession × TransferStep)) :
    live ((s, l) :: h) = live h := by
  cases l with
  | cancelTransfer id => exact absurd rfl (hl id)
  | _ => simp only [live, hs]

/-- **The invariant of a run**: its live transfers are the keys of the map, in the order of their
    starts, and below the next id. -/
structure LastStarted (t : Run) : Prop where
  below : t.state.manager.IdsBelow
  used : ∀ id ∈ live t.history, id < t.state.manager.nextConnectionId
  order : (live t.history).Pairwise fun id id' => id' < id
  keys : ∀ id, id ∈ live t.history ↔ (t.state.find? id).isSome = true

theorem LastStarted.step {t t' : Run} {l : TransferStep} (hI : LastStarted t)
    (hok : t.state.NoWrap l) (hs : traced next t l = some t') : LastStarted t' := by
  obtain ⟨hnext, hhistory⟩ := traced_eq_some_iff.mp hs
  have hkeys := hI.keys
  have heffect := effect_next hnext
  unfold find? at hkeys
  generalize hm : t'.state.manager = m' at heffect
  have hgoal : ∀ ids, live t'.history = ids → m'.IdsBelow →
      (∀ id ∈ ids, id < m'.nextConnectionId) → (ids.Pairwise fun id id' => id' < id) →
      (∀ id, id ∈ ids ↔ (m'.transfers.find? id).isSome = true) → LastStarted t' := by
    rintro _ rfl hbelow hused horder hids
    subst hm
    exact ⟨hbelow, hused, horder, hids⟩
  rw [hhistory] at hgoal
  cases heffect with
  | update _ h hnone hcancel =>
      obtain ⟨hbelow, hid⟩ := hI.below.update h
      refine hgoal _ (live_of_none hnone hcancel _) hbelow ?_ hI.order fun id => ?_
      · rw [hid]
        exact hI.used
      · rw [hkeys id]
        cases h with
        | keep => exact Iff.rfl
        | assign key context context' hkey =>
            by_cases hid : id = key
            · rw [hid, hkey, FileTransferManager.find?_setContext_self]
              exact iff_of_true rfl rfl
            · rw [FileTransferManager.find?_setContext_of_ne _ _ hid]
  | start context hstart =>
      -- the step is a call that may start a transfer
      have hw : t.state.manager.nextConnectionId + 1 < 2 ^ 32 := by
        cases l with
        | packet p env =>
            refine hok (.startFileReceive t.state.fs t.state.session.fileReceiveDirectory p
              env.request) (if_pos (isRequest_of_started hstart).1)
        | startFileSend filePath chunkSize mem openFails => exact hok _ rfl
        | _ => cases hstart
      have hid : (t.state.manager.bump.setContext t.state.manager.nextConnectionId
          context).nextConnectionId = t.state.manager.nextConnectionId + 1 := Nat.mod_eq_of_lt hw
      refine hgoal _ (live_of_started hstart _) (hI.below.create hw (.new context)).1 ?_
        (List.pairwise_cons.mpr ⟨hI.used, hI.order⟩) fun id => ?_
      · rw [hid]
        exact List.forall_mem_cons.mpr ⟨Nat.lt_succ_self _, fun id h =>
          Nat.lt_succ_of_lt (hI.used id h)⟩
      · rw [List.mem_cons, hkeys id]
        by_cases hid : id = t.state.manager.nextConnectionId
        · rw [hid, FileTransferManager.find?_setContext_self]
          exact iff_of_true (.inl rfl) rfl
        · rw [FileTransferManager.find?_setContext_of_ne _ _ hid]
          exact or_iff_right hid
  | cancel id hl =>
      subst hl
      refine hgoal _ (live_of_cancel _ id _) (hI.below.callEffect (.cancel id)) ?_
        (hI.order.filter _) fun id' => ?_
      · rw [FileTransferManager.nextConnectionId_cancelTransfer]
        exact fun id' h => hI.used id' (List.mem_filter.mp h).1
      · rw [List.mem_filter, hkeys id', FileTransferManager.find?_cancelTransfer]
        by_cases hid : id' = id <;> simp [hid]

theorem lastStarted_of_reach {fs : FileSystem} {dir : Path} {connected : Bool} {t : Run}
    (hr : Reach (traced next) (fun t l => t.state.NoWrap l) (start fs dir connected) t) :
    LastStarted t :=
  hr.invariant ⟨FileTransferManager.idsBelow_new, fun _ h => (nomatch h), .nil,
    fun _ => iff_of_false (List.not_mem_nil) Bool.false_ne_true⟩
    fun _ _ _ hI hok hs => hI.step hok hs

/-- The largest id is the one of the last transfer. -/
theorem LastStarted.latest?_eq {t : Run} (hI : LastStarted t) {id : Nat} {rest : List Nat}
    (h : live t.history = id :: rest) : ∃ context, t.state.latest? = some (id, context) := by
  have hused := hI.keys
  have horder := hI.order
  rw [h] at hused horder
  obtain ⟨context, hcontext⟩ := Option.isSome_iff_exists.mp ((hused id).mp List.mem_cons_self)
  refine ⟨context, OrdMap.rbegin?_eq_some_iff.mpr ⟨hcontext, fun id' context' h' => ?_⟩⟩
  have hmem := (hused id').mpr (Option.isSome_iff_exists.mpr ⟨context', h'⟩)
  rcases List.mem_cons.mp hmem with rfl | hmem
  · exact Nat.le_refl _
  · exact Nat.le_of_lt ((List.pairwise_cons.mp horder).1 id' hmem)

/-- A chunk where there is no transfer changes nothing. -/
theorem LastStarted.receive_of_nil {t : Run} (hI : LastStarted t) {p : List UInt8}
    {env : Surroundings} (hp : packetId p = fileDataChunk) (h : live t.history = []) :
    t.state.receive p env = t.state := by
  have hnone : t.state.manager.transfers.rbegin? = none := by
    rw [Option.eq_none_iff_forall_not_mem]
    rintro ⟨id, context⟩ hlast
    have hmem := (hI.keys id).mpr (Option.isSome_iff_exists.mpr
      ⟨context, (OrdMap.rbegin?_eq_some_iff.mp hlast).1⟩)
    rw [h] at hmem
    nomatch hmem
  have hprocess : t.state.process p env = (false, t.state.fs, t.state.manager, []) := by
    unfold process processFileChunk
    rw [hnone]
  rw [t.state.receive_chunk env hp, hprocess]

/-- **Chunk attribution.** Whatever is received, sent and cancelled on a session, in any order and
    whatever fails, a chunk goes to the transfer that was started last and is not cancelled, whose
    id no other transfer shares; where there is none, it changes nothing. -/
theorem chunk_attribution (fs : FileSystem) (dir : Path) (connected : Bool) (t : Run)
    (hr : Reach (traced next) (fun t l => t.state.NoWrap l) (start fs dir connected) t)
    (p : List UInt8) (env : Surroundings) (hp : packetId p = fileDataChunk) :
    (live t.history = [] → t.state.receive p env = t.state) ∧
      ∀ id rest, live t.history = id :: rest →
        t.state.StoredIn p env id ∧ ∀ id' ∈ rest, id' ≠ id := by
  have hI := lastStarted_of_reach hr
  refine ⟨hI.receive_of_nil hp, fun id rest h => ?_⟩
  obtain ⟨context, hlast⟩ := hI.latest?_eq h
  have horder := hI.order
  rw [h] at horder
  exact ⟨storedIn_of_latest env hp hlast, fun id' hmem =>
    Nat.ne_of_lt ((List.pairwise_cons.mp horder).1 id' hmem)⟩

/-! ## 3. Two transfers -/

/-- Two files of one byte are announced, and then the chunk of the first is sent. -/
theorem two_requests_one_chunk :
    let fs := (FileSystem.empty.setFile [0x61] [7]).setFile [0x62] [8]
    ∃ m₁ m₂ m₃ requestA requestB p,
      FileTransferManager.new.startFileSend fs [0x61] defaultChunkSize (fun _ => 0) false =
        some (true, m₁, [.send requestA]) ∧
      m₁.startFileSend fs [0x62] defaultChunkSize (fun _ => 0) false =
        some (true, m₂, [.send requestB]) ∧
      m₂.sendNextChunk fs 1 (fun _ => 0) .none =
        (true, m₃, [.send p, .complete 1 true [0x61]]) ∧
      packetId requestA = fileTransferRequest ∧ FileHeader.filename requestA = [0x61] ∧
      FileHeader.fileSize requestA = 1 ∧
      packetId requestB = fileTransferRequest ∧ FileHeader.filename requestB = [0x62] ∧
      FileHeader.fileSize requestB = 1 ∧
      FileChunk.read p = sliceChunk [7] defaultChunkSize 0 := by
  intro fs
  have hfileA : fs.files [0x61] = some [7] := rfl
  have hfileB : fs.files [0x62] = some [8] := rfl
  obtain ⟨requestA, hA, hstartA⟩ := startFileSend_of_file .new defaultChunkSize
    (fun _ => 0) hfileA (by decide) (by decide)
  obtain ⟨requestB, hB, hstartB⟩ := startFileSend_of_file
    (FileTransferManager.new.bump.setContext 1 (contextAfter [0x61] 1 defaultChunkSize 0))
    defaultChunkSize (fun _ => 0) hfileB (by decide) (by decide)
  obtain ⟨hidA, hnameA, hsizeA, -⟩ := read_createFileRequestPacket (by decide) hA
  obtain ⟨hidB, hnameB, hsizeB, -⟩ := read_createFileRequestPacket (by decide) hB
  have hfind : ((FileTransferManager.new.bump.setContext 1
      (contextAfter [0x61] 1 defaultChunkSize 0)).bump.setContext 2
        (contextAfter [0x62] 1 defaultChunkSize 0)).findTransfer 1 =
      some (1, contextAfter [0x61] 1 defaultChunkSize 0) := rfl
  obtain ⟨p, hread, -, hsend⟩ := sendNextChunk_of_lt (fun _ => 0) hfileA (by decide) (by decide)
    hfind (by decide)
  have hlast : 0 + 1 = sliceCount ([7] : List UInt8).length defaultChunkSize := by decide
  rw [if_pos hlast] at hsend
  exact ⟨_, _, _, requestA, requestB, p, hstartA, hstartB, hsend, hidA, hnameA, hsizeA, hidB,
    hnameB, hsizeB, hread⟩

/-- A session that was given two requests for files of one byte. -/
theorem reach_two_requests {requestA requestB : List UInt8}
    (hidA : packetId requestA = fileTransferRequest)
    (hnameA : FileHeader.filename requestA = [0x61]) (hsizeA : FileHeader.fileSize requestA = 1)
    (hidB : packetId requestB = fileTransferRequest)
    (hnameB : FileHeader.filename requestB = [0x62]) (hsizeB : FileHeader.fileSize requestB = 1) :
    ∃ t₁ t fs, traced next (start .empty [0x2E] true) (.packet requestA .calm) = some t₁ ∧
      traced next t₁ (.packet requestB .calm) = some t ∧
      t.state = ⟨⟨fs, (FileTransferManager.new.bump.setContext 1
          (.receiving [0x2E, 0x2F, 0x61] requestA)).bump.setContext 2
          (.receiving [0x2E, 0x2F, 0x62] requestB), [0x2E]⟩, true⟩ ∧
      fs.files [0x2E, 0x2F, 0x62] = some [0] ∧ live t.history = [2, 1] ∧
      Reach (traced next) (fun t l => t.state.NoWrap l) (start .empty [0x2E] true) t := by
  have hpathA : receivePath [0x2E] requestA = [0x2E, 0x2F, 0x61] := by
    unfold receivePath
    rw [hnameA]
    rfl
  have hpathB : receivePath [0x2E] requestB = [0x2E, 0x2F, 0x62] := by
    unfold receivePath
    rw [hnameB]
    rfl
  have hcall : ∀ {s : TransferSession} {p : List UInt8}, packetId p = fileTransferRequest →
      s.manager.nextConnectionId + 1 < 2 ^ 32 → s.NoWrap (.packet p .calm) := by
    intro s p hp hw c hc
    unfold call at hc
    dsimp only at hc
    rw [if_pos hp] at hc
    obtain rfl := Option.some.inj hc
    exact hw
  have hfirst := receive_request_calm (start .empty [0x2E] true).state hidA (by omega) (by omega)
  obtain ⟨hstartA, fs₁, h₁, -⟩ := hfirst
  rw [show (start .empty [0x2E] true).state.session.fileReceiveDirectory = [0x2E] from rfl,
    hpathA] at h₁
  have hsecond := receive_request_calm ((start .empty [0x2E] true).state.receive requestA .calm)
    hidB (by omega) (by omega)
  rw [h₁] at hsecond
  obtain ⟨hstartB, fs₂, h₂, hfile₂⟩ := hsecond
  rw [hpathB, hsizeB] at hfile₂
  rw [hpathB] at h₂
  have hnext₁ := traced_packet (start .empty [0x2E] true) h₁
  have hnext₂ := traced_packet
    ⟨_, [((start .empty [0x2E] true).state, .packet requestA .calm)]⟩ h₂
  refine ⟨_, _, fs₂, hnext₁, hnext₂, rfl, hfile₂, ?_, ?_⟩
  · rw [live_of_started hstartB, live_of_started hstartA]
    rfl
  · refine .step _ _ _ (.step _ _ _ .start (hcall hidA (by decide)) hnext₁) (hcall hidB ?_) hnext₂
    show (2 : Nat) + 1 < 2 ^ 32
    decide

/-- The chunk of the first file, after both requests: it is stored in the second. -/
theorem chunk_attribution_two_transfers :
    ∃ t p env, Reach (traced next) (fun t l => t.state.NoWrap l) (start .empty [0x2E] true) t ∧
      packetId p = fileDataChunk ∧ live t.history = [2, 1] ∧ t.state.StoredIn p env 2 := by
  obtain ⟨_, _, _, requestA, requestB, p, -, -, -, hidA, hnameA, hsizeA, hidB, hnameB, hsizeB,
    hread⟩ := two_requests_one_chunk
  obtain ⟨_, t, _, -, -, -, -, hlive, hr⟩ :=
    reach_two_requests hidA hnameA hsizeA hidB hnameB hsizeB
  have hp : packetId p = fileDataChunk := congrArg FileChunk.id hread
  exact ⟨t, p, .calm, hr, hp, hlive,
    ((chunk_attribution .empty [0x2E] true t hr p .calm hp).2 2 [1] hlive).1⟩

/-- **A chunk goes astray**: after the requests of two transfers, the chunk of the first, as the
    sender's manager sends them, is written into the file of the second. -/
theorem chunk_of_first_transfer_misplaced :
    let fs := (FileSystem.empty.setFile [0x61] [7]).setFile [0x62] [8]
    ∃ m₁ m₂ m₃ requestA requestB p t₁ t,
      FileTransferManager.new.startFileSend fs [0x61] defaultChunkSize (fun _ => 0) false =
        some (true, m₁, [.send requestA]) ∧
      m₁.startFileSend fs [0x62] defaultChunkSize (fun _ => 0) false =
        some (true, m₂, [.send requestB]) ∧
      m₂.sendNextChunk fs 1 (fun _ => 0) .none =
        (true, m₃, [.send p, .complete 1 true [0x61]]) ∧
      traced next (start .empty [0x2E] true) (.packet requestA .calm) = some t₁ ∧
      traced next t₁ (.packet requestB .calm) = some t ∧
      packetId p = fileDataChunk ∧ live t.history = [2, 1] ∧
      (t.state.receive p .calm).fs.files [0x2E, 0x2F, 0x62] = some [7] ∧
      ¬ t.state.StoredIn p .calm 1 := by
  intro fs
  obtain ⟨m₁, m₂, m₃, requestA, requestB, p, hA, hB, hsend, hidA, hnameA, hsizeA, hidB, hnameB,
    hsizeB, hread⟩ := two_requests_one_chunk
  obtain ⟨t₁, t, fs₂, h₁, h₂, ht, hfile, hlive, -⟩ :=
    reach_two_requests hidA hnameA hsizeA hidB hnameB hsizeB
  have hp : packetId p = fileDataChunk := congrArg FileChunk.id hread
  -- the session takes the context 2
  have hlast : t.state.latest? = some (2, .receiving [0x2E, 0x2F, 0x62] requestB) := by
    rw [ht]
    rfl
  have hbefore : t.state.fs.files [0x2E, 0x2F, 0x62] = some [0] := by
    rw [ht]
    exact hfile
  have hafter : (t.state.receive p .calm).fs.files [0x2E, 0x2F, 0x62] = some [7] := by
    have hfit : (FileChunk.read p).chunkId * defaultChunkSize + (FileChunk.read p).chunkSize ≤
        FileHeader.fileSize requestB := by
      rw [hread, hsizeB]
      decide
    have hsmall : FileHeader.fileSize requestB < 2 ^ 63 := by
      rw [hsizeB]
      decide
    have hdata : (FileChunk.read p).data.length = (FileChunk.read p).chunkSize := hread ▸ rfl
    obtain ⟨-, -, -, -, hfile'⟩ := t.state.receive_chunk_calm hp hlast
      (show Path.parentPath [0x2E, 0x2F, 0x62] ≠ [] by decide) hbefore
      hsizeB.symm hdata hfit hsmall
    rw [hread] at hfile'
    exact hfile'
  refine ⟨m₁, m₂, m₃, requestA, requestB, p, t₁, t, hA, hB, hsend, h₁, h₂, hp, hlive, hafter, ?_⟩
  intro hstored
  obtain ⟨-, after, -, hcontext, -, hfiles, -⟩ := hstored.file
  -- the context 1 and its file are left alone
  have hothers := (storedIn_of_latest .calm hp hlast).others 1 (by decide)
  have hfirst : t.state.find? 1 = some (.receiving [0x2E, 0x2F, 0x61] requestA) := by
    rw [ht]
    rfl
  obtain rfl := Option.some.inj (hcontext.symm.trans (hothers.trans hfirst))
  have hne : ¬ Path.SameFile [0x2E, 0x2F, 0x62] [0x2E, 0x2F, 0x61] := by decide
  have hsame := hfiles [0x2E, 0x2F, 0x62] hne
  rw [hafter, hbefore] at hsame
  exact absurd hsame (by decide)

end TransferSession

end ServerCore
