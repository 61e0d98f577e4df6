/-
  File:      ServerCore/FileFinal.lean
  Subject:   Whether a completed reception stays as it is.

  ProcessFileChunk takes the context of the largest id, completed or not, and does not look at
  `isCompleted` (as SendNextChunk does). A context that is not the one of the largest id is never
  touched again, and its file only by a chunk written to the same file. So completed receptions
  are final on the runs where no chunk meets a completed one or its file (`reception_final`), and
  a chunk that is accepted into a completed one changes it.
-/
import ServerCore.FileCompletion

namespace ServerCore

open Seg Trans

/-- `SendNextChunk` leaves a completed context alone. -/
theorem FileTransferManager.find?_sendNextChunk_of_completed (fs : FileSystem)
    {m : FileTransferManager} {id : Nat} {context : FileTransferContext}
    (hfind : m.transfers.find? id = some context) (hdone : context.isCompleted = true)
    (connectionId : Nat) (mem : Memory) (faults : SendFaults) :
    (m.sendNextChunk fs connectionId mem faults).2.1.transfers.find? id = some context := by
  rcases FileTransferManager.sendNextChunk_cases fs m connectionId mem faults with
    h | ⟨key, found, after, hkey, h⟩
  · rw [h]
    exact hfind
  · by_cases hid : id = key
    · -- the transfer it works on is completed, and it returns at once
      subst hid
      obtain rfl := Option.some.inj (hfind.symm.trans (find?_of_findTransfer hkey))
      unfold sendNextChunk
      rw [hkey]
      dsimp only
      rw [if_pos hdone]
      exact hfind
    · rw [h, find?_setContext_of_ne _ _ hid]
      exact hfind

namespace TransferSession

/-! ## 1. The law and its condition -/

/-- The transfer `id` is a completed reception, with the context `context`. -/
structure Completed (t : Run) (id : Nat) (context : FileTransferContext) : Prop where
  reception : isReception t.history id = true
  find : t.state.find? id = some context
  done : context.isCompleted = true

/-- **The chunk `p` leaves what is completed as it is**: the context with its counters and the file;
    and it does not call the callback for it again. -/
def KeepsCompleted (t : Run) (p : List UInt8) (env : Surroundings) : Prop :=
  packetId p = fileDataChunk → ∀ id context, Completed t id context →
    (t.state.receive p env).find? id = some context ∧
      (t.state.receive p env).fs.files context.filePath = t.state.fs.files context.filePath ∧
      ∀ success path, .complete id success path ∉ t.state.events (.packet p env)

/-- **The step concerns no completed reception.** -/
structure Apart (t : Run) (l : TransferStep) : Prop where
  /-- No transfer is started under the id of one: ids come again only after 2 ^ 32 of them. -/
  start : ∀ id, t.state.started l = some id → ∀ context, ¬ Completed t id context
  /-- None is cancelled. -/
  cancel : ∀ id, l = .cancelTransfer id → ∀ context, ¬ Completed t id context
  /-- A chunk for which a file can be opened meets neither a completed reception nor the file of
      one. -/
  chunk : ∀ p env, l = .packet p env → packetId p = fileDataChunk →
    ∀ key latest, t.state.latest? = some (key, latest) → CanOpen t.state.fs latest env.chunk →
      (∀ context, ¬ Completed t key context) ∧ ∀ id context, Completed t id context →
        ¬ Path.SameFile context.filePath (chunkPath t.state.fs latest env.time env.chunk)

/-- **One chunk**, apart from what is completed. -/
theorem Apart.keeps {t : Run} {p : List UInt8} {env : Surroundings}
    (h : Apart t (.packet p env)) : KeepsCompleted t p env := by
  intro hp id context hdone
  have hevents : t.state.events (.packet p env) = (t.state.process p env).2.2.2 := if_pos hp
  rw [hevents, t.state.receive_chunk env hp]
  by_cases hcan : ∃ key latest, t.state.latest? = some (key, latest) ∧
      CanOpen t.state.fs latest env.chunk
  · obtain ⟨key, latest, hlast, hcan⟩ := hcan
    obtain ⟨hkey, hfile⟩ := h.chunk p env rfl hp key latest hlast hcan
    have hne : id ≠ key := by
      rintro rfl
      exact hkey context hdone
    refine ⟨?_, processFileChunk_files fun key' latest' hlast' => ?_, fun success path hin => ?_⟩
    · rw [← t.state.receive_chunk env hp]
      refine (find?_receive_chunk env hp fun key' latest' hlast' => ?_).trans hdone.find
      obtain ⟨rfl, -⟩ := Prod.mk.inj (Option.some.inj (hlast.symm.trans hlast'))
      exact hne
    · obtain ⟨rfl, rfl⟩ := Prod.mk.inj (Option.some.inj (hlast.symm.trans hlast'))
      exact hfile id context hdone
    · obtain ⟨latest', hlast', -⟩ := closes_of_complete hin
      obtain ⟨rfl, -⟩ := Prod.mk.inj (Option.some.inj (hlast.symm.trans hlast'))
      exact hne rfl
  · obtain ⟨fs', hprocess, hfiles⟩ := process_of_not_canOpen p fun key latest hlast hcan' =>
      hcan ⟨key, latest, hlast, hcan'⟩
    rw [hprocess]
    exact ⟨hdone.find, congrFun hfiles _, fun _ _ => List.not_mem_nil⟩

/-- **One step**: what is completed stays completed. -/
theorem Completed.step {t t' : Run} {l : TransferStep} {id : Nat} {context : FileTransferContext}
    (h : Completed t id context) (hok : Apart t l) (hs : traced next t l = some t') :
    Completed t' id context := by
  obtain ⟨hnext, hhistory⟩ := traced_eq_some_iff.mp hs
  have hstart : t.state.started l ≠ some id := fun e => hok.start id e context h
  refine ⟨by rw [hhistory, isReception_of_ne hstart, h.reception], ?_, h.done⟩
  have hcreate : ∀ after, t.state.started l = some t.state.manager.nextConnectionId →
      (t.state.manager.bump.setContext t.state.manager.nextConnectionId after).transfers.find? id =
        some context := by
    intro after e
    rw [FileTransferManager.find?_setContext_of_ne _ _ (by rintro rfl; exact hstart e)]
    exact h.find
  cases l with
  | packet p env =>
      obtain hnext := Option.some.inj hnext
      rw [← hnext]
      by_cases hr : packetId p = fileTransferRequest
      · unfold find?
        obtain ⟨-, hm⟩ | ⟨hstarted, hm⟩ := t.state.request_cases env hr
        · rw [hm]
          exact h.find
        · rw [hm]
          exact hcreate _ hstarted
      · by_cases hc : packetId p = fileDataChunk
        · exact (hok.keeps hc id context h).1
        · rw [t.state.receive_other env hr hc]
          exact h.find
  | startFileSend filePath chunkSize mem openFails =>
      obtain ⟨r, hr, hr'⟩ := Option.map_eq_some_iff.mp hnext
      rw [← hr']
      show r.2.1.transfers.find? id = some context
      obtain ⟨-, hm⟩ | ⟨hstarted, content, -, hm⟩ := send_cases hr
      · rw [hm]
        exact h.find
      · rw [hm]
        exact hcreate _ hstarted
  | sendNextChunk connectionId mem faults =>
      rw [← Option.some.inj hnext]
      exact FileTransferManager.find?_sendNextChunk_of_completed t.state.fs h.find h.done
        connectionId mem faults
  | cancelTransfer connectionId =>
      rw [← Option.some.inj hnext]
      show (t.state.manager.cancelTransfer connectionId).transfers.find? id = some context
      rw [FileTransferManager.find?_cancelTransfer, if_neg]
      · exact h.find
      · rintro rfl
        exact hok.cancel _ rfl context h
  | connection connected =>
      rw [← Option.some.inj hnext]
      exact h.find
  | disk fs =>
      rw [← Option.some.inj hnext]
      exact h.find

/-- An accepted chunk counts itself in the context it goes to. -/
theorem chunksSent_accept_ne (context : FileTransferContext) (path : Path) (chunk : FileChunk) :
    (context.accept path chunk).chunksSent ≠ context.chunksSent := by
  rw [context.chunksSent_accept]
  unfold u32
  omega

/-- A chunk that is accepted into a completed reception changes its counters. -/
theorem not_keepsCompleted {t : Run} {p : List UInt8} (env : Surroundings) {key : Nat}
    {context : FileTransferContext} (hp : packetId p = fileDataChunk)
    (hlast : t.state.latest? = some (key, context))
    (haccepts : Accepts t.state.fs context (.read p) env.chunk) (hdone : Completed t key context) :
    (∃ after, (t.state.receive p env).find? key = some after ∧
      after.chunksSent ≠ context.chunksSent) ∧ ¬ KeepsCompleted t p env := by
  have hafter := find?_of_accepts env hp hlast haccepts
  have hne := chunksSent_accept_ne context (chunkPath t.state.fs context env.time env.chunk)
    (.read p)
  refine ⟨⟨_, hafter, hne⟩, fun hkeeps => hne ?_⟩
  have hsame := (hkeeps hp key context hdone).1
  rw [hafter] at hsame
  exact congrArg FileTransferContext.chunksSent (Option.some.inj hsame)

/-- **A completed reception is final** on every run of steps that concern no completed one: it stays
    completed with the same context, and every chunk of the run leaves it and its file alone and
    calls no callback for it. A chunk that a completed reception accepts changes it. -/
theorem reception_final (fs : FileSystem) (dir : Path) (connected : Bool) :
    (∀ t, Reach (traced next) always (start fs dir connected) t →
      ∀ id context, Completed t id context → ∀ t', Reach (traced next) Apart t t' →
        Completed t' id context ∧ ∀ p env, Apart t' (.packet p env) → KeepsCompleted t' p env) ∧
    ∀ t, Reach (traced next) always (start fs dir connected) t → ∀ p env key context,
      packetId p = fileDataChunk → t.state.latest? = some (key, context) →
      Accepts t.state.fs context (.read p) env.chunk → Completed t key context →
        (∃ after, (t.state.receive p env).find? key = some after ∧
          after.chunksSent ≠ context.chunksSent) ∧ ¬ KeepsCompleted t p env := by
  refine ⟨fun t _ id context hdone t' hrun => ⟨?_, fun p env h => h.keeps⟩,
    fun t _ p env key context => not_keepsCompleted env⟩
  exact hrun.invariant (I := fun t => Completed t id context) hdone
    fun _ _ _ h hok hs => h.step hok hs

/-! ## 2. A completed reception -/

/-- A file of one byte was announced and has arrived. -/
theorem completed_one_byte :
    ∃ t p context content, Reach (traced next) always (start .empty [0x2E] true) t ∧
      Completed t 1 context ∧ t.state.latest? = some (1, context) ∧
      t.state.manager.nextConnectionId = 2 ∧ Path.parentPath context.filePath ≠ [] ∧
      t.state.fs.files context.filePath = some content ∧ content.length = context.fileSize ∧
      context.fileSize = 1 ∧ packetId p = fileDataChunk ∧
      FileChunk.read p = ⟨sizeofFileChunk + 1, fileDataChunk, 0, 1, true, [7]⟩ := by
  obtain ⟨t, request, context, hid, hstart, hnext, hhistory, hm, hpath, hsize, hchunk, -, hfile⟩ :=
    exists_reception (n := 1) (by decide) (by decide)
  obtain ⟨p, hp, hread⟩ := exists_lastChunk
  have hlast : t.state.latest? = some (1, context) := by
    unfold latest?
    rw [hm]
    rfl
  have hparent : Path.parentPath context.filePath ≠ [] := hpath ▸ by decide
  rw [← hpath] at hfile
  obtain ⟨haccepts, hchunkPath, hm', -, hfile'⟩ := t.state.receive_chunk_calm hp hlast hparent hfile
    (by rw [List.length_replicate, hsize]) (by rw [hread]; rfl)
    (by rw [hread]; dsimp only; omega) (by omega)
  have hclosed : context.closedBy (.read p) = true := by
    rw [hread]
    rfl
  have hpath' := context.filePath_accept context.filePath (.read p)
  have hnot : t.state.started (.packet p .calm) ≠ some 1 := by
    rw [t.state.not_started_chunk .calm hp]
    nofun
  refine ⟨⟨t.state.receive p .calm, (t.state, .packet p .calm) :: t.history⟩, p,
    context.accept context.filePath (.read p), _,
    .step _ _ _ (.step _ _ _ .start trivial hnext) trivial (traced_packet t rfl), ⟨?_, ?_, ?_⟩,
    ?_, ?_, by rwa [hpath'], by rwa [hpath'], ?_, ?_, hp, hread⟩
  · rw [isReception_of_ne hnot, hhistory]
    exact isReception_of_request hstart _
  · have hafter := find?_of_accepts .calm hp hlast haccepts
    rwa [show chunkPath t.state.fs context Surroundings.calm.time Surroundings.calm.chunk = _ from
      hchunkPath] at hafter
  · unfold FileTransferContext.accept
    rw [hclosed]
    rfl
  · unfold latest?
    rw [hm']
    exact OrdMap.rbegin?_insert_self hlast _
  · rw [hm', hm]
    rfl
  · rw [FileTransferContext.fileSize_accept, hsize, hread, patch_of_le (by simp),
      length_splice (by simp), List.length_replicate]
  · rw [FileTransferContext.fileSize_accept, hsize]

/-- A request after the reception concerns no completed one, so the reception stays. -/
theorem reception_final_request :
    ∃ t t' context p, Reach (traced next) always (start .empty [0x2E] true) t ∧
      Completed t 1 context ∧ packetId p = fileTransferRequest ∧
      traced next t (.packet p .calm) = some t' ∧ Completed t' 1 context := by
  obtain ⟨t, -, context, -, hr, hdone, hlast, hid, -⟩ := completed_one_byte
  obtain ⟨request, hrequest⟩ : ∃ q, packetId q = fileTransferRequest :=
    ⟨[4, 0, 100, 0], by decide⟩
  have hapart : Apart t (.packet request .calm) := by
    refine ⟨fun id hstart context' hdone' => ?_, fun _ h => TransferStep.noConfusion h,
      fun p env hl hchunk => ?_⟩
    · obtain ⟨-, -, rfl⟩ := isRequest_of_started hstart
      have hle := (OrdMap.rbegin?_eq_some_iff.mp hlast).2 _ context' hdone'.find
      omega
    · obtain ⟨rfl, rfl⟩ := TransferStep.packet.inj hl
      rw [hrequest] at hchunk
      exact absurd hchunk (by decide)
  refine ⟨t, _, context, request, hr, hdone, hrequest, traced_packet t rfl, ?_⟩
  exact ((reception_final .empty [0x2E] true).1 t hr 1 context hdone _
    (.step t _ _ .start hapart (traced_packet t rfl))).1

/-- **The chunk that completed a reception, once more**: it is accepted, counted and reported
    again. -/
theorem completed_twice :
    ∃ t p env context path, Reach (traced next) always (start .empty [0x2E] true) t ∧
      Completed t 1 context ∧ packetId p = fileDataChunk ∧
      .complete 1 true path ∈ t.state.events (.packet p env) ∧ ¬ KeepsCompleted t p env := by
  obtain ⟨t, p, context, content, hr, hdone, hlast, -, hparent, hfile, hlen, hsize, hp, hread⟩ :=
    completed_one_byte
  obtain ⟨haccepts, -, -, hevents, -⟩ := t.state.receive_chunk_calm hp hlast hparent hfile hlen
    (by rw [hread]; rfl) (by rw [hread]; dsimp only; omega) (by omega)
  have hclosed : context.closedBy (.read p) = true := by
    rw [hread]
    rfl
  obtain ⟨-, hchanged⟩ := not_keepsCompleted .calm hp hlast haccepts hdone
  refine ⟨t, p, .calm, context, context.filePath, hr, hdone, hp, ?_, hchanged⟩
  rw [hevents, if_pos hclosed]
  exact List.mem_singleton_self _

end TransferSession

end ServerCore
