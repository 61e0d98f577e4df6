/-
  File:      ServerCore/FileConfinement.lean
  Subject:   Which files a received name reaches.

  StartFileReceive (FileTransfer.cpp) appends the name of the request to the receive directory and
  uses the result as it is: for the backup, for the new file, and later for the chunks. The files
  touched are entries of the directory just when the name leads from the directory back to it up
  to its last separator and is a proper name behind it (`path_confinement`). A chunk that goes to
  the file of a transfer that is sent is no better confined.
-/
import ServerCore.FileFinal

namespace ServerCore

open Trans

namespace Path

/-! ## 1. Names that stay in the directory -/

/-- The alternative file for an entry is one. -/
theorem IsEntry.alternative {p d : Path} (h : IsEntry p d) (time : Nat) :
    IsEntry (alternativePath (parentPath p) time) d := by
  obtain ⟨dir, s, name, rfl, hs, hname, hproper, hdir, hnormal⟩ := h
  obtain ⟨hparent, hsame⟩ := parentPath_of_entry hs hname hdir
  have hfree : ∀ c ∈ [0x72, 0x65, 0x63, 0x65, 0x69, 0x76, 0x65, 0x64, 0x5F] ++
      (ofString (toString time) ++ ofString ".bin"), isSeparator c = false := by
    refine List.forall_mem_append.mpr ⟨by simp [isSeparator], List.forall_mem_append.mpr
      ⟨fun c hc => not_isSeparator_of_mem_toString hc, ?_⟩⟩
    rw [ofString_bin]
    simp [isSeparator]
  refine ⟨_, 0x2F, _, ?_, by decide, hfree, proper_of_length ?_, hparent, hsame.trans hnormal⟩
  · unfold alternativePath
    rw [ofString_received, List.append_assoc, List.append_assoc]
    rfl
  · rw [List.length_append]
    exact Nat.lt_of_lt_of_le (by decide) (Nat.le_add_right 9 _)

/-- **The name stays in the directory `d`**: up to its last separator it leads from `d` back to
    `d`, behind it is a proper name, and `d` is a directory and not a bare drive designator. -/
def StaysIn (d name : Path) : Prop :=
  dropDrive d ≠ [] ∧
    Lexical.resolve dot (isRooted d) (normal d).components
      (name.splitOnP isSeparator).dropLast = (normal d).components ∧
    Lexical.Proper dot ((name.splitOnP isSeparator).getLastD [])

instance (d name : Path) : Decidable (StaysIn d name) :=
  inferInstanceAs (Decidable (_ ∧ _ ∧ _))

/-- A name that stays in the directory makes an entry of it. -/
theorem StaysIn.isEntry {d name : Path} (h : StaysIn d name) : IsEntry (d ++ 0x2F :: name) d := by
  obtain ⟨hd, hback, hproper⟩ := h
  rcases Lexical.exists_last_component isSeparator name with hfree | ⟨dir, s, base, rfl, hs, hbase⟩
  · rw [List.splitOnP_eq_singleton hfree] at hproper
    exact ⟨d, 0x2F, name, rfl, by decide, hfree, hproper, hd, rfl⟩
  · rw [List.splitOnP_append_cons dir base hs, List.splitOnP_eq_singleton hbase] at hback hproper
    rw [List.dropLast_concat] at hback
    rw [List.getLastD_concat] at hproper
    refine ⟨d ++ 0x2F :: dir, s, base, by rw [List.append_assoc]; rfl, hs, hbase, hproper, ?_, ?_⟩
    · rw [dropDrive_append d (by decide)]
      exact List.append_ne_nil_of_left_ne_nil hd _
    · rw [normal_append hd (by decide), hback]

/-- **The name and its backup are children of the directory just when the name stays in it.** -/
theorem isChildOf_iff_staysIn (d name : Path) :
    IsChildOf (d ++ 0x2F :: name) d ∧ IsChildOf (d ++ 0x2F :: name ++ ofString ".bak") d ↔
      StaysIn d name := by
  constructor
  · rintro ⟨⟨c, hc, hchild⟩, b, hb, hbackup⟩
    have hd : dropDrive d ≠ [] := by
      intro hnil
      have hrooted := congrArg NormalPath.rooted hchild
      exact normal_append_of_nil hnil (s := 0x2F) (by decide) name hrooted
    obtain ⟨pre, last, hsplit, hsplitBak⟩ := Lexical.exists_split_concat isSeparator name
    have hcomponents := congrArg NormalPath.components hchild
    have hcomponentsBak := congrArg NormalPath.components hbackup
    rw [List.append_assoc, List.cons_append] at hcomponentsBak
    rw [normal_append hd (by decide), hsplit] at hcomponents
    rw [normal_append hd (by decide), hsplitBak _ bak_free] at hcomponentsBak
    dsimp only at hcomponents hcomponentsBak
    rw [Lexical.resolve_concat] at hcomponents hcomponentsBak
    -- the backup has a proper name, so what precedes it leads back
    rw [Lexical.push_proper dot (proper_append_bak last)] at hcomponentsBak
    have hback := (List.cons.inj hcomponentsBak).2
    rw [hback, Lexical.push_eq_cons_iff dot hc] at hcomponents
    refine ⟨hd, ?_, ?_⟩
    · rw [hsplit, List.dropLast_concat]
      exact hback
    · rw [hsplit, List.getLastD_concat, hcomponents]
      exact hc
  · intro h
    exact ⟨h.isEntry.isChildOf, h.isEntry.backup.isChildOf⟩

end Path

/-! ## 2. What a packet touches -/

/-- The paths that `StartFileReceive(targetDir, header)` renames, creates or truncates, or tries
    to. -/
def receiveTouches (fs : FileSystem) (targetDir : Path) (header : List UInt8)
    (faults : ReceiveFaults) : List Path :=
  let filePath := receivePath targetDir header
  match fs.ensureDirectory targetDir faults.createDirectories with
  | none => []
  | some fs =>
      if fs.exists? filePath then [filePath, filePath ++ Path.ofString ".bak", filePath]
      else [filePath]

/-- The paths that `ProcessFileChunk` opens, or tries to. -/
def chunkTouches (fs : FileSystem) (m : FileTransferManager) (time : Nat) (faults : ChunkFaults) :
    List Path :=
  match m.transfers.rbegin? with
  | none => []
  | some (_, context) =>
      let dirPath := Path.parentPath context.filePath
      if (fs.ensureParent dirPath faults.createDirectories).isNone then []
      else if fallsBack fs context faults then [context.filePath, alternativePath dirPath time]
      else [context.filePath]

/-- The paths a packet touches. -/
def TransferSession.touches (s : TransferSession) (p : List UInt8) (env : Surroundings) :
    List Path :=
  if packetId p = fileTransferRequest then
    receiveTouches s.fs s.session.fileReceiveDirectory p env.request
  else if packetId p = fileDataChunk then chunkTouches s.fs s.manager env.time env.chunk
  else []

/-- Only the new file and its backup are touched. -/
theorem isChildOf_of_mem_receiveTouches {fs : FileSystem} {d path : Path} {header : List UInt8}
    {faults : ReceiveFaults} (hentry : Path.IsEntry (receivePath d header) d)
    (hp : path ∈ receiveTouches fs d header faults) : Path.IsChildOf path d := by
  have hcases : path = receivePath d header ∨
      path = receivePath d header ++ Path.ofString ".bak" := by
    unfold receiveTouches at hp
    dsimp only at hp
    split at hp
    · exact absurd hp List.not_mem_nil
    · split at hp <;> simp only [List.mem_cons, List.not_mem_nil, or_false] at hp
      · rcases hp with hp | hp | hp
        · exact .inl hp
        · exact .inr hp
        · exact .inl hp
      · exact .inl hp
  rcases hcases with rfl | rfl
  · exact hentry.isChildOf
  · exact hentry.backup.isChildOf

/-- Only the file of the context and the alternative are touched. -/
theorem isChildOf_of_mem_chunkTouches {fs : FileSystem} {m : FileTransferManager} {d path : Path}
    {time : Nat} {faults : ChunkFaults}
    (hentry : ∀ key context, m.transfers.rbegin? = some (key, context) →
      Path.IsEntry context.filePath d)
    (hp : path ∈ chunkTouches fs m time faults) : Path.IsChildOf path d := by
  unfold chunkTouches at hp
  split at hp
  · exact absurd hp List.not_mem_nil
  · rename_i key context hlast
    have hcontext := hentry key context hlast
    dsimp only at hp
    split at hp
    · exact absurd hp List.not_mem_nil
    · split at hp <;> simp only [List.mem_cons, List.not_mem_nil, or_false] at hp
      · rcases hp with rfl | rfl
        · exact hcontext.isChildOf
        · exact (hcontext.alternative time).isChildOf
      · rw [hp]
        exact hcontext.isChildOf

/-! ## 3. What is outside of the directory -/

/-- **The path `path` is as it was**: its file, and whether it is a directory, save that it may have
    been made as one on the way to `d` where `d` was not there. -/
structure Untouched (d : Path) (fs fs' : FileSystem) (path : Path) : Prop where
  files : fs'.files path = fs.files path
  dirs : fs'.dirs path = fs.dirs path ∨ fs.exists? d = false ∧ Path.IsInside d path

theorem Untouched.refl (d : Path) (fs : FileSystem) (path : Path) : Untouched d fs fs path :=
  ⟨rfl, .inl rfl⟩

theorem Untouched.trans {d path : Path} {fs fs₁ fs₂ : FileSystem} (h : Untouched d fs fs₁ path)
    (h' : Untouched d fs₁ fs₂ path) (hd : fs.exists? d = true → fs₁.exists? d = true) :
    Untouched d fs fs₂ path := by
  refine ⟨h'.files.trans h.files, ?_⟩
  rcases h'.dirs with hsame | ⟨hnot, hinside⟩
  · rw [hsame]
    exact h.dirs
  · refine .inr ⟨Bool.eq_false_iff.mpr fun hexists => ?_, hinside⟩
    rw [hd hexists] at hnot
    exact absurd hnot (by decide)

/-- What is there stays there. -/
theorem Untouched.exists? {d : Path} {fs fs' : FileSystem} (h : Untouched d fs fs' d)
    (hd : fs.exists? d = true) : fs'.exists? d = true := by
  rcases h.dirs with hsame | ⟨hnot, -⟩
  · unfold FileSystem.exists? at hd ⊢
    rwa [h.files, hsame]
  · rw [hd] at hnot
    exact absurd hnot (by decide)

/-- The directory that is made is `d`, with those on the way to it. -/
theorem untouched_ensureDirectory {fs fs' : FileSystem} {dir d : Path} {fails : Bool}
    (hdir : Path.SameFile dir d) (h : fs.ensureDirectory dir fails = some fs') (path : Path) :
    Untouched d fs fs' path := by
  refine ⟨congrFun (FileSystem.files_ensureDirectory h) path, ?_⟩
  have hexists : fs.exists? dir = fs.exists? d := by
    unfold FileSystem.exists? FileSystem.dirs
    rw [fs.files_congr hdir, hdir]
  unfold FileSystem.ensureDirectory at h
  rw [hexists] at h
  split at h
  · exact .inl (Option.some.inj h ▸ rfl)
  · rename_i hd
    split at h
    · exact absurd h nofun
    · obtain rfl := Option.some.inj h
      by_cases hinside : Path.IsInside d path
      · exact .inr ⟨Bool.eq_false_iff.mpr hd, hinside⟩
      · refine .inl (Bool.eq_iff_iff.mpr ((fs.dirs_createDirectories dir path).trans
          (or_iff_left fun h => hinside ?_)))
        unfold Path.IsInside at h ⊢
        rwa [← hdir]

theorem dirs_preallocate (file : OFStream) (fs : FileSystem) (n : Nat) (fault : Option Nat) :
    (file.preallocate fs n fault).2.dirs = fs.dirs := by
  unfold OFStream.preallocate OFStream.put0
  exact OFStream.dirs_write ..

/-- **StartFileReceive leaves alone** what is in none of the paths it touches. -/
theorem untouched_startFileReceive {fs : FileSystem} {m : FileTransferManager} {targetDir : Path}
    {header : List UInt8} {faults : ReceiveFaults} {path : Path}
    (h : ∀ q ∈ receiveTouches fs targetDir header faults, ¬ Path.IsInside path q) :
    Untouched targetDir fs (startFileReceive fs m targetDir header faults).2.1 path := by
  unfold receiveTouches at h
  unfold startFileReceive
  dsimp only at h ⊢
  cases hdir : fs.ensureDirectory targetDir faults.createDirectories with
  | none => exact .refl _ fs path
  | some fs₁ =>
      rw [hdir] at h
      dsimp only at h ⊢
      have hmade := untouched_ensureDirectory (d := targetDir) rfl hdir path
      have hrest : ∀ {fs' : FileSystem}, fs'.files path = fs₁.files path →
          fs'.dirs path = fs₁.dirs path → Untouched targetDir fs fs' path :=
        fun hfiles hdirs => ⟨hfiles.trans hmade.files, hdirs ▸ hmade.dirs⟩
      -- the new file, and the backup where there is one
      have hne : ¬ Path.IsInside path (receivePath targetDir header) := by
        refine h _ ?_
        split <;> exact List.mem_cons_self
      have hbackup : (fs₁.backup (receivePath targetDir header) faults.rename).files path =
            fs₁.files path ∧
          (fs₁.backup (receivePath targetDir header) faults.rename).dirs path =
            fs₁.dirs path := by
        unfold FileSystem.backup
        split
        · rename_i hexists
          obtain ⟨hexists, -⟩ := Bool.and_eq_true_iff.mp hexists
          rw [if_pos hexists] at h
          have hbak := h _ (List.mem_cons_of_mem _ List.mem_cons_self)
          exact ⟨fs₁.files_rename_of_ne hne hbak, fs₁.dirs_rename_of_ne hne hbak⟩
        · exact ⟨rfl, rfl⟩
      have hfile : ¬ Path.SameFile path (receivePath targetDir header) :=
        mt Path.isInside_of_sameFile hne
      have hstored := (OFStream.files_preallocate_of_ne ⟨receivePath targetDir header, 0, true⟩
        (FileHeader.fileSize header) faults.preallocate hfile).trans
          ((FileSystem.files_setFile_of_ne _ [] hfile).trans hbackup.1)
      have hstoredDirs := (congrFun (dirs_preallocate ⟨receivePath targetDir header, 0, true⟩
        ((fs₁.backup (receivePath targetDir header) faults.rename).setFile
          (receivePath targetDir header) []) (FileHeader.fileSize header)
        faults.preallocate) path).trans hbackup.2
      split
      · exact hrest hbackup.1 hbackup.2
      · split
        · exact hrest hstored hstoredDirs
        · exact hrest hstored hstoredDirs

/-- Behind the directory of its file, ProcessFileChunk makes none. -/
theorem dirs_processFileChunk {fs fs₁ : FileSystem} {m : FileTransferManager} {chunk : FileChunk}
    {time key : Nat} {faults : ChunkFaults} {context : FileTransferContext}
    (hlast : m.transfers.rbegin? = some (key, context))
    (hdir : fs.ensureParent (Path.parentPath context.filePath) faults.createDirectories =
      some fs₁) : (processFileChunk fs m chunk time faults).2.1.dirs = fs₁.dirs := by
  unfold processFileChunk
  rw [hlast]
  dsimp only
  rw [hdir]
  dsimp only
  cases hopen : openForChunk fs₁ context (Path.parentPath context.filePath) time faults with
  | none => rfl
  | some r =>
      obtain ⟨file, fs₂, context'⟩ := r
      have hopened : fs₂.dirs = fs₁.dirs := by
        unfold openForChunk at hopen
        split at hopen
        · cases hopen
          rfl
        · split at hopen
          · cases hopen
            rfl
          · split at hopen
            · cases hopen
              rfl
            · cases hopen
      dsimp only
      rw [fs_storeChunk, writeChunk_eq, OFStream.dirs_write, ← hopened]
      unfold streamForWrite
      dsimp only
      split
      · exact dirs_preallocate ..
      · rfl

/-- **ProcessFileChunk leaves alone** what is in none of the paths it touches. -/
theorem untouched_processFileChunk {fs : FileSystem} {m : FileTransferManager} {chunk : FileChunk}
    {time : Nat} {faults : ChunkFaults} {d path : Path}
    (hdir : ∀ key context, m.transfers.rbegin? = some (key, context) →
      Path.SameFile (Path.parentPath context.filePath) d)
    (h : ∀ q ∈ chunkTouches fs m time faults, ¬ Path.IsInside path q) :
    Untouched d fs (processFileChunk fs m chunk time faults).2.1 path := by
  unfold chunkTouches at h
  cases hlast : m.transfers.rbegin? with
  | none =>
      unfold processFileChunk
      rw [hlast]
      exact .refl _ fs path
  | some r =>
      obtain ⟨key, context⟩ := r
      rw [hlast] at h
      dsimp only at h
      cases hparent : fs.ensureParent (Path.parentPath context.filePath)
          faults.createDirectories with
      | none =>
          unfold processFileChunk
          rw [hlast]
          dsimp only
          rw [hparent]
          exact .refl _ fs path
      | some fs₁ =>
          have hmade := untouched_ensureDirectory (hdir key context hlast)
            (FileSystem.ensureParent_eq_some.mp hparent).2 path
          rw [hparent] at h
          refine ⟨processFileChunk_files fun key' context' hlast' => ?_, ?_⟩
          · obtain ⟨rfl, rfl⟩ := Prod.mk.inj (Option.some.inj (hlast.symm.trans hlast'))
            refine mt Path.isInside_of_sameFile (h _ ?_)
            unfold chunkPath
            rw [if_neg (by simp)]
            split
            · exact List.mem_cons_of_mem _ List.mem_cons_self
            · exact List.mem_cons_self
          · rw [dirs_processFileChunk hlast hparent]
            exact hmade.dirs

namespace TransferSession

/-! ## 4. The runs -/

/-- **The step stays in the receive directory.** -/
structure Confined (t : Run) (l : TransferStep) : Prop where
  /-- A request names a file that stays in it. -/
  request : ∀ p env, l = .packet p env → packetId p = fileTransferRequest →
    Path.StaysIn t.state.session.fileReceiveDirectory (FileHeader.filename p)
  /-- A chunk goes to a reception, or else to a file that is an entry of it. -/
  chunk : ∀ p env, l = .packet p env → packetId p = fileDataChunk →
    ∀ key latest, t.state.latest? = some (key, latest) → isReception t.history key = false →
      Path.IsEntry latest.filePath t.state.session.fileReceiveDirectory
  /-- No other program writes. -/
  disk : ∀ fs, l ≠ .disk fs

/-- **All is in the directory `d`**: the files of the receptions are entries of it, and nothing else
    was touched since `fs`, nor `d` itself. -/
structure InDirectory (fs : FileSystem) (d : Path) (t : Run) : Prop where
  directory : t.state.session.fileReceiveDirectory = d
  entries : ∀ id context, isReception t.history id = true → t.state.find? id = some context →
    Path.IsEntry context.filePath d
  outside : ∀ path, (∀ q, Path.IsChildOf q d → ¬ Path.IsInside path q) →
    Untouched d fs t.state.fs path

/-- The file of a chunk is an entry of the directory. -/
theorem InDirectory.entry {fs : FileSystem} {d : Path} {t : Run} (h : InDirectory fs d t)
    {p : List UInt8} {env : Surroundings} (hok : Confined t (.packet p env))
    (hp : packetId p = fileDataChunk) {key : Nat} {context : FileTransferContext}
    (hlast : t.state.latest? = some (key, context)) : Path.IsEntry context.filePath d := by
  cases hreception : isReception t.history key with
  | true => exact h.entries key context hreception (find?_of_latest? hlast)
  | false =>
      rw [← h.directory]
      exact hok.chunk p env rfl hp key context hlast hreception

/-- **What is touched is in the directory.** -/
theorem InDirectory.touches {fs : FileSystem} {d : Path} {t : Run} (h : InDirectory fs d t)
    {p : List UInt8} {env : Surroundings} (hok : Confined t (.packet p env)) {path : Path}
    (hpath : path ∈ t.state.touches p env) : Path.IsChildOf path d := by
  unfold TransferSession.touches at hpath
  split at hpath
  · rename_i hr
    have hentry := (hok.request p env rfl hr).isEntry
    rw [h.directory] at hentry hpath
    exact isChildOf_of_mem_receiveTouches hentry hpath
  · split at hpath
    · rename_i hp
      exact isChildOf_of_mem_chunkTouches (fun key context hlast => h.entry hok hp hlast) hpath
    · exact absurd hpath List.not_mem_nil

/-- **One packet touches only what it names.** -/
theorem InDirectory.untouched {fs : FileSystem} {d : Path} {t : Run} (h : InDirectory fs d t)
    {p : List UInt8} {env : Surroundings} (hok : Confined t (.packet p env)) {path : Path}
    (hpath : ∀ q, Path.IsChildOf q d → ¬ Path.IsInside path q) :
    Untouched d t.state.fs (t.state.receive p env).fs path := by
  have htouches : ∀ q ∈ t.state.touches p env, ¬ Path.IsInside path q :=
    fun q hq => hpath q (h.touches hok hq)
  unfold TransferSession.touches at htouches
  by_cases hr : packetId p = fileTransferRequest
  · rw [if_pos hr] at htouches
    rw [t.state.receive_request env hr]
    have hstart := untouched_startFileReceive (m := t.state.manager) htouches
    rw [h.directory] at hstart
    unfold TransferSession.request
    rw [h.directory]
    exact hstart
  · rw [if_neg hr] at htouches
    by_cases hc : packetId p = fileDataChunk
    · rw [if_pos hc] at htouches
      rw [t.state.receive_chunk env hc]
      refine untouched_processFileChunk (fun key context hlast => ?_) htouches
      obtain ⟨dir, s, name, e, hs, hname, -, hdir, hnormal⟩ := h.entry hok hc hlast
      rw [e]
      exact (Path.parentPath_of_entry hs hname hdir).2.trans hnormal
    · rw [t.state.receive_other env hr hc]
      exact .refl d _ path

/-- **The receptions after a step**: their files are entries of the directory. -/
theorem InDirectory.entries_step {fs : FileSystem} {d : Path} {t t' : Run} {l : TransferStep}
    (h : InDirectory fs d t) (hok : Confined t l) (hs : traced next t l = some t') (id : Nat)
    (context' : FileTransferContext) (hreception : isReception t'.history id = true)
    (hfind : t'.state.find? id = some context') : Path.IsEntry context'.filePath d := by
  obtain ⟨hnext, hhistory⟩ := traced_eq_some_iff.mp hs
  rw [hhistory] at hreception
  -- the file of a chunk is the one of its context, or the alternative
  have hchunk : ∀ {env : Surroundings} {context : FileTransferContext},
      isReception t.history id = true → t.state.latest? = some (id, context) →
      Path.IsEntry (chunkPath t.state.fs context env.time env.chunk) d := by
    intro env context hbefore hlast
    have hentry := h.entries id context hbefore (find?_of_latest? hlast)
    rcases chunkPath_cases t.state.fs context env.time env.chunk with e | e
    · rw [e]
      exact hentry
    · rw [e]
      exact hentry.alternative _
  have hbefore : t.state.started l ≠ some id → isReception t.history id = true := fun hnot => by
    rwa [isReception_of_ne hnot] at hreception
  cases found_after hnext hfind with
  | requested p env hl hstart =>
      subst hl
      have hentry := (hok.request p env rfl (isRequest_of_started hstart).1).isEntry
      rw [h.directory] at hentry ⊢
      exact hentry
  | sending _ _ _ _ _ hl hstart =>
      obtain ⟨p, env, rfl⟩ := exists_packet_of_isReception hreception hstart
      cases hl
  | kept _ hfind hnot => exact h.entries id _ (hbefore hnot) hfind
  | opened p env context hl hlast hnot => exact hchunk (hbefore hnot) hlast
  | accepted p env context hl hlast hnot =>
      rw [FileTransferContext.filePath_accept]
      exact hchunk (hbefore hnot) hlast
  | continued context _ hfind hpath _ _ hnot =>
      rw [hpath]
      exact h.entries id context (hbefore hnot) hfind

/-- Only packets, and other programs, change the files. -/
theorem fs_of_not_packet {s s' : TransferSession} {l : TransferStep}
    (hp : ∀ p env, l ≠ .packet p env) (hd : ∀ fs, l ≠ .disk fs) (hs : s.next l = some s') :
    s'.fs = s.fs := by
  cases l with
  | packet p env => exact absurd rfl (hp p env)
  | disk fs => exact absurd rfl (hd fs)
  | startFileSend =>
      obtain ⟨r, -, rfl⟩ := Option.map_eq_some_iff.mp hs
      rfl
  | sendNextChunk | cancelTransfer | connection => exact Option.some.inj hs ▸ rfl

/-- **One step.** -/
theorem InDirectory.step {fs : FileSystem} {d : Path} {t t' : Run} {l : TransferStep}
    (h : InDirectory fs d t) (hok : Confined t l) (hs : traced next t l = some t') :
    InDirectory fs d t' := by
  obtain ⟨hnext, -⟩ := traced_eq_some_iff.mp hs
  have hentries := h.entries_step hok hs
  have hdirectory := (fileReceiveDirectory_next hnext).trans h.directory
  by_cases hp : ∃ p env, l = .packet p env
  · obtain ⟨p, env, rfl⟩ := hp
    have hstate := Option.some.inj hnext
    refine ⟨hdirectory, hentries, fun path hpath => ?_⟩
    rw [← hstate]
    refine (h.outside path hpath).trans (h.untouched hok hpath) fun hd => ?_
    exact (h.outside d fun q hq => hq.not_isInside).exists? hd
  · refine ⟨hdirectory, hentries, fun path hpath => ?_⟩
    rw [fs_of_not_packet (fun p env e => hp ⟨p, env, e⟩) hok.disk hnext]
    exact h.outside path hpath

/-- **Path confinement**: what StartFileReceive touches are children of the receive directory, for
    every file system and whatever fails, just when the name stays in the directory; and over the
    runs whose requests all have such names, and whose chunks go to receptions or into the
    directory, every packet touches children of the directory only, and nothing outside of it
    changes. -/
theorem path_confinement (d : Path) :
    (∀ header, (∀ fs faults, ∀ path ∈ receiveTouches fs d header faults, Path.IsChildOf path d) ↔
      Path.StaysIn d (FileHeader.filename header)) ∧
    ∀ fs connected t, Reach (traced next) Confined (start fs d connected) t →
      (∀ p env, Confined t (.packet p env) → ∀ path ∈ t.state.touches p env,
        Path.IsChildOf path d) ∧
      ∀ path, ¬ Path.IsInside path d → Untouched d fs t.state.fs path := by
  refine ⟨fun header => ⟨fun h => ?_, fun h fs faults path hp => ?_⟩, fun fs connected t hr => ?_⟩
  · -- with the file there, the backup is touched besides
    refine (Path.isChildOf_iff_staysIn d _).mp ?_
    obtain ⟨fs, hdir⟩ :=
      (FileSystem.empty.setFile (receivePath d header) []).exists_ensureDirectory d
    have hexists : fs.exists? (receivePath d header) = true := by
      unfold FileSystem.exists?
      rw [FileSystem.files_ensureDirectory hdir, FileSystem.files_setFile_self]
      rfl
    have htouches : receiveTouches (FileSystem.empty.setFile (receivePath d header) []) d header
        .none = [receivePath d header, receivePath d header ++ Path.ofString ".bak",
          receivePath d header] := by
      unfold receiveTouches
      rw [show ReceiveFaults.none.createDirectories = false from rfl, hdir]
      exact if_pos hexists
    have hchildren := h (FileSystem.empty.setFile (receivePath d header) []) .none
    rw [htouches] at hchildren
    exact ⟨hchildren _ (List.mem_cons_self ..),
      hchildren _ (List.mem_cons_of_mem _ (List.mem_cons_self ..))⟩
  · exact isChildOf_of_mem_receiveTouches h.isEntry hp
  · have hI : InDirectory fs d t := by
      refine hr.invariant ⟨rfl, fun id _ hreception => ?_, fun path _ => .refl d fs path⟩
        fun _ _ _ h hok hs => h.step hok hs
      exact absurd (show isReception [] id = true from hreception) Bool.false_ne_true
    refine ⟨fun p env hok path hp => hI.touches hok hp, fun path hpath => hI.outside path ?_⟩
    exact fun q hq hinside => hpath (hinside.trans hq.isInside)

/-- A request for the file `a` stays in the directory `.`. -/
theorem path_confinement_request :
    ∃ t, Reach (traced next) Confined (start .empty [0x2E] true) t ∧
      t.state.fs.files [0x2E, 0x2F, 0x61] = some [0] ∧
      ∀ path, ¬ Path.IsInside path [0x2E] → t.state.fs.files path = none := by
  obtain ⟨request, hid, hname, hsize⟩ := exists_fileRequest (n := 1) (by decide)
  have hconfined : Confined (start .empty [0x2E] true) (.packet request .calm) := by
    refine ⟨fun p env hl _ => ?_, fun p env hl hp => ?_, fun _ => nofun⟩
    · obtain ⟨rfl, -⟩ := TransferStep.packet.inj hl
      show Path.StaysIn [0x2E] (FileHeader.filename request)
      rw [hname]
      decide
    · obtain ⟨rfl, -⟩ := TransferStep.packet.inj hl
      rw [hid] at hp
      exact absurd hp (by decide)
  obtain ⟨-, fs, hs, hfile⟩ := receive_request_calm (start .empty [0x2E] true).state hid (by omega)
    (by omega)
  have hpath : receivePath [0x2E] request = [0x2E, 0x2F, 0x61] := by
    unfold receivePath
    rw [hname]
    rfl
  rw [show (start .empty [0x2E] true).state.session.fileReceiveDirectory = [0x2E] from rfl, hpath,
    hsize] at hfile
  have hr := Reach.step _ _ _ .start hconfined (traced_packet (start .empty [0x2E] true) hs)
  exact ⟨_, hr, hfile, fun path hpath =>
    (((path_confinement [0x2E]).2 .empty true _ hr).2 path hpath).files⟩

/-- A request for `../x`, of one byte. -/
def upRequest : List UInt8 :=
  [0x18, 0x01, 0x64, 0x00, 0x2E, 0x2E, 0x2F, 0x78] ++ List.replicate 256 0 ++ [1] ++
    List.replicate 15 0

/-- **The name `../x`** is created beside the receive directory. -/
theorem path_not_confined :
    ∃ path, path ∈ (start .empty [0x64] true).state.touches upRequest .calm ∧
      ¬ Path.IsInside path [0x64] ∧
      ((start .empty [0x64] true).state.receive upRequest .calm).fs.files path ≠
        FileSystem.empty.files path := by
  have hid : packetId upRequest = fileTransferRequest := by decide
  refine ⟨receivePath [0x64] upRequest, ?_, ?_, ?_⟩
  · exact List.mem_singleton_self _
  · decide
  · obtain ⟨-, fs, hs, hfile⟩ := receive_request_calm (start .empty [0x64] true).state hid
      (by decide) (by decide)
    have hsize : FileHeader.fileSize upRequest = 1 := by decide
    rw [hs]
    change fs.files (receivePath [0x64] upRequest) ≠ none
    rw [show fs.files (receivePath [0x64] upRequest) = _ from hfile]
    nofun

end TransferSession

end ServerCore
