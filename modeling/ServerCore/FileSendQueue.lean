/-
  File:      ServerCore/FileSendQueue.lean
  Subject:   Whether the packets of a transfer reported as sent were queued.

  Session::Send (Session.cpp) leaves a packet out where the session is not connected, and returns
  nothing; SendNextChunk (FileTransfer.cpp) advances, and at the end reports success, all the
  same. A received chunk that goes to the transfer (ProcessFileChunk does not ask for its
  direction) may report it too. So over the runs of a session where no chunk does, the report is
  true just of those that left no packet out (`success_law`).
-/
import ServerCore.TransferSession

namespace ServerCore

open Trans

/-! ## 1. What is handed to Session::Send -/

/-- The callback was called with success. -/
def reports (events : List TransferEvent) : Bool :=
  events.any fun
    | .complete _ success _ => success
    | _ => false

/-- A packet handed to `Session::Send`, whether the session was connected then, and what was in the
    file that is sent. -/
structure Handed where
  packet : List UInt8
  connected : Bool
  file : Option (List UInt8)

/-- **The packet of the slice `i`** of `n` bytes, of the file as it was then. -/
def Handed.IsSlice (n chunkSize i : Nat) (e : Handed) : Prop :=
  ∃ content, e.file = some content ∧ FileChunk.read e.packet = readChunk n content chunkSize i

/-- The packets that `Session::Send` pushed to `_sendQueue`. -/
def queued (handed : List Handed) : List Handed := handed.filter fun e => e.connected

/-- Those that it left out. -/
def dropped (handed : List Handed) : List Handed := handed.filter fun e => !e.connected

namespace TransferSession

/-- The transfer that the step is for: the one it starts, the one that the chunk goes to, or the one
    that `SendNextChunk` finds. -/
def worksOn (s : TransferSession) : TransferStep → Option Nat
  | .packet p env =>
      if packetId p = fileDataChunk then s.latest?.map Prod.fst else s.started (.packet p env)
  | .startFileSend filePath chunkSize mem openFails =>
      s.started (.startFileSend filePath chunkSize mem openFails)
  | .sendNextChunk connectionId _ _ => (s.manager.findTransfer connectionId).map Prod.fst
  | .cancelTransfer _ | .connection _ | .disk _ => none

/-- What the step does for the transfer `key`. -/
def ownEvents (s : TransferSession) (key : Nat) (l : TransferStep) : List TransferEvent :=
  if s.worksOn l = some key then s.events l else []

/-- What the step hands to `Session::Send` for the transfer `key` of the file `filePath`. -/
def handedBy (s : TransferSession) (key : Nat) (filePath : Path) (l : TransferStep) :
    List Handed :=
  (packets (s.ownEvents key l)).map fun packet => ⟨packet, s.connected, s.fs.files filePath⟩

/-- What a run has handed to it, the oldest first. -/
def handed (key : Nat) (filePath : Path) : List (TransferSession × TransferStep) → List Handed
  | [] => []
  | (s, l) :: h => handed key filePath h ++ s.handedBy key filePath l

/-- The callback was called with success for the transfer `key`. -/
def reported (key : Nat) : List (TransferSession × TransferStep) → Bool
  | [] => false
  | (s, l) :: h => reported key h || reports (s.ownEvents key l)

/-! ## 2. The law and its condition -/

/-- **A reported success is true**: the request packet and the packets of all slices of the `n`
    bytes are queued, in this order. -/
def Truthful (key : Nat) (filePath : Path) (request : List UInt8) (n chunkSize : Nat)
    (t : Run) : Prop :=
  reported key t.history = true →
    ∃ first chunks, queued (handed key filePath t.history) = first :: chunks ∧
      first.packet = request ∧ chunks.length = sliceCount n chunkSize ∧
      ∀ (i : Nat) (e : Handed), chunks[i]? = some e → e.IsSlice n chunkSize i

/-- **The transfer `key` stays a transfer that is sent**: its id is not given out again, and no
    received chunk for which a file can be opened goes to it before it is completed. -/
structure Undisturbed (key : Nat) (t : Run) (l : TransferStep) : Prop where
  start : t.state.started l ≠ some key
  chunk : ∀ p env, l = .packet p env → packetId p = fileDataChunk → ∀ context,
    t.state.latest? = some (key, context) → CanOpen t.state.fs context env.chunk →
      context.isCompleted = true

/-- **A call that has a slice of the transfer to send is made while the session is connected.** -/
def Connected (key : Nat) (t : Run) : TransferStep → Prop
  | .sendNextChunk connectionId _ faults => ∀ context,
      t.state.manager.findTransfer connectionId = some (key, context) →
      context.isCompleted = false → context.remainingBytes ≠ 0 →
      t.state.fs.files context.filePath ≠ none → faults.read = false → faults.alloc = false →
      t.state.connected = true
  | _ => True

/-- The transfer whose start was the step `l` in `s`, with the session after it. -/
def sent (s : TransferSession) (l : TransferStep) (s' : TransferSession) : Run := ⟨s', [(s, l)]⟩

/-! ## 3. One call of SendNextChunk -/

section Call

variable {key : Nat} {filePath : Path} {n chunkSize j : Nat} {connectionId : Nat}

/-- **A call for a transfer that is not completed**: it goes no further, hands over its next slice,
    or there are no bytes and it is completed at once. -/
inductive SliceCall (s : TransferSession) (key : Nat) (filePath : Path)
    (n chunkSize j connectionId : Nat) (faults : SendFaults) :
    FileTransferManager × List TransferEvent → Prop where
  | nothing (m : FileTransferManager)
      (hfind : m.transfers.find? key = some (contextAfter filePath n chunkSize j)) :
      SliceCall s key filePath n chunkSize j connectionId faults (m, [])
  | slice (content p : List UInt8) (hfile : s.fs.files filePath = some content)
      (hread : faults.read = false) (halloc : faults.alloc = false)
      (hj : j < sliceCount n chunkSize)
      (hp : FileChunk.read p = readChunk n content chunkSize j) :
      SliceCall s key filePath n chunkSize j connectionId faults
        (s.manager.setContext key (contextAfter filePath n chunkSize (j + 1)),
          [.send p, if j + 1 = sliceCount n chunkSize then .complete connectionId true filePath
            else .schedule connectionId])
  | empty (context : FileTransferContext) (hn : sliceCount n chunkSize = 0) (hj : j = 0)
      (hdone : context.isCompleted = true) :
      SliceCall s key filePath n chunkSize j connectionId faults
        (s.manager.setContext key context, [.complete connectionId true filePath])

theorem sliceCall (s : TransferSession) (mem : Memory) (faults : SendFaults) (hn : n < 2 ^ 64)
    (hc : 1 ≤ chunkSize) (hfind : s.manager.findTransfer connectionId =
      some (key, contextAfter filePath n chunkSize j))
    (hnot : ¬ max 1 (sliceCount n chunkSize) ≤ j) :
    s.SliceCall key filePath n chunkSize j connectionId faults
      (s.manager.sendNextChunk s.fs connectionId mem faults).2 := by
  have hkey := FileTransferManager.find?_of_findTransfer hfind
  have hdone : (contextAfter filePath n chunkSize j).isCompleted = false := decide_eq_false hnot
  cases hfile : s.fs.files filePath with
  | none =>
      have hnothing : s.manager.sendNextChunk s.fs connectionId mem faults =
          (false, s.manager, []) := by
        have hpath : (contextAfter filePath n chunkSize j).filePath = filePath := rfl
        unfold FileTransferManager.sendNextChunk
        rw [hfind]
        dsimp only
        rw [if_neg (Bool.eq_false_iff.mp hdone), hpath, hfile]
      rw [hnothing]
      exact .nothing _ hkey
  | some content =>
      rw [sendNextChunk_of_not_done mem faults hfile hn hfind hnot]
      have hN := lt_sliceCount (n := n) hc j
      have hopened : (contextAfter filePath n chunkSize j).opened =
          contextAfter filePath n chunkSize j := by
        unfold FileTransferContext.opened contextAfter
        rw [show decide (max 1 (sliceCount n chunkSize) ≤ j) = false from hdone]
        rfl
      -- the stream is open already, so a call that fails leaves the context as it was
      have hfailed : (s.manager.setContext key
          (contextAfter filePath n chunkSize j).opened).transfers.find? key =
            some (contextAfter filePath n chunkSize j) := by
        rw [FileTransferManager.find?_setContext_self, hopened]
      split
      · exact .empty _ (by omega) (by omega) rfl
      · cases hread : faults.read with
        | true =>
            unfold FileTransferManager.sendSlice
            rw [if_pos hread]
            exact .nothing _ hfailed
        | false =>
            cases halloc : faults.alloc with
            | true =>
                unfold FileTransferManager.sendSlice
                rw [if_neg (Bool.eq_false_iff.mp hread), halloc]
                rw [createFileChunkPacket_of_allocFails]
                exact .nothing _ hfailed
            | false =>
                obtain ⟨p, hp, -, hsend⟩ := @sendSlice_of_lt filePath n chunkSize j s.manager key
                  connectionId mem content faults hread halloc hn hc (by omega)
                rw [hsend]
                exact .slice content p hfile hread halloc (by omega) hp

end Call

/-! ## 4. The accounts of a transfer -/

/-- **How far the transfer is**, with `count` slices handed over: it is still sent, it is done, or
    it was cancelled. -/
inductive Phase (key : Nat) (filePath : Path) (n chunkSize count : Nat) (t : Run) : Prop where
  | sending (hfind : t.state.find? key = some (contextAfter filePath n chunkSize count))
      (hnot : ¬ max 1 (sliceCount n chunkSize) ≤ count) (hreported : reported key t.history = false)
  | finished (hcount : count = sliceCount n chunkSize)
      (hdone : ∀ context, t.state.find? key = some context → context.isCompleted = true)
  | cancelled (hfind : t.state.find? key = none) (hreported : reported key t.history = false)

/-- **What was handed over**: the request and then the slices, one after the other. -/
structure Accounts (key : Nat) (filePath : Path) (request : List UInt8) (n chunkSize : Nat)
    (t : Run) (chunks : List Handed) : Prop where
  handedOver : ∃ first, handed key filePath t.history = first :: chunks ∧ first.packet = request
  slices : ∀ (i : Nat) (e : Handed), chunks[i]? = some e → e.IsSlice n chunkSize i
  phase : Phase key filePath n chunkSize chunks.length t

section Run

variable {key : Nat} {filePath : Path} {request : List UInt8} {n chunkSize : Nat}

theorem reported_cons (s : TransferSession) (l : TransferStep)
    (h : List (TransferSession × TransferStep)) :
    reported key ((s, l) :: h) = (reported key h || reports (s.ownEvents key l)) :=
  rfl

theorem dropped_append (l l' : List Handed) : dropped (l ++ l') = dropped l ++ dropped l' :=
  List.filter_append l l'

theorem queued_of_dropped {l : List Handed} (h : dropped l = []) : queued l = l := by
  refine List.filter_eq_self.mpr fun e he => ?_
  have hnot := List.filter_eq_nil_iff.mp h e he
  simpa using hnot

/-- Success is reported once all slices were handed over. -/
theorem Phase.count_of_reported {count : Nat} {t : Run}
    (h : Phase key filePath n chunkSize count t) (hreported : reported key t.history = true) :
    count = sliceCount n chunkSize := by
  cases h with
  | sending _ _ hnot => exact absurd (hnot.symm.trans hreported) Bool.false_ne_true
  | finished hcount => exact hcount
  | cancelled _ hnot => exact absurd (hnot.symm.trans hreported) Bool.false_ne_true

/-- What is reported is true just when nothing was dropped. -/
theorem Accounts.truthful_iff {t : Run} {chunks : List Handed}
    (hI : Accounts key filePath request n chunkSize t chunks) :
    Truthful key filePath request n chunkSize t ↔
      (reported key t.history = true → dropped (handed key filePath t.history) = [])
    := by
  obtain ⟨first, hhanded, hfirst⟩ := hI.handedOver
  constructor
  · intro h hreported
    obtain ⟨first', chunks', hqueued, -, hlength, -⟩ := h hreported
    have hcount := hI.phase.count_of_reported hreported
    have hsum := List.length_eq_length_filter_add
      (l := handed key filePath t.history) fun e => e.connected
    unfold queued at hqueued
    rw [hqueued, hhanded, List.length_cons, List.length_cons] at hsum
    rw [hhanded]
    exact List.length_eq_zero_iff.mp (show (List.filter _ _).length = 0 by omega)
  · intro h hreported
    exact ⟨first, chunks, (queued_of_dropped (h hreported)).trans hhanded, hfirst,
      hI.phase.count_of_reported hreported, hI.slices⟩

/-! ## 5. One step -/

/-- **A step for another transfer** leaves this one as it is, or cancels it. -/
theorem find?_of_not_worksOn {s s' : TransferSession} {l : TransferStep} (hs : s.next l = some s')
    (hnot : s.worksOn l ≠ some key) : s'.find? key = s.find? key ∨ s'.find? key = none := by
  have hcreate : ∀ context, s.manager.nextConnectionId ≠ key →
      (s.manager.bump.setContext s.manager.nextConnectionId context).transfers.find? key =
        s.find? key :=
    fun context hne => FileTransferManager.find?_setContext_of_ne _ _ (Ne.symm hne)
  cases l with
  | packet p env =>
      obtain rfl := Option.some.inj hs
      unfold worksOn at hnot
      dsimp only at hnot
      by_cases hc : packetId p = fileDataChunk
      · rw [if_pos hc] at hnot
        refine .inl (find?_receive_chunk env hc fun key' latest hlast e => hnot ?_)
        rw [hlast, e, Option.map_some]
      · rw [if_neg hc] at hnot
        by_cases hr : packetId p = fileTransferRequest
        · unfold find?
          obtain ⟨-, hm⟩ | ⟨hstart, hm⟩ := s.request_cases env hr
          · rw [hm]
            exact .inl rfl
          · rw [hm]
            exact .inl (hcreate _ fun e => hnot (hstart.trans (congrArg some e)))
        · rw [s.receive_other env hr hc]
          exact .inl rfl
  | startFileSend filePath' chunkSize' mem openFails =>
      obtain ⟨r, hr, rfl⟩ := Option.map_eq_some_iff.mp hs
      show r.2.1.transfers.find? key = _ ∨ r.2.1.transfers.find? key = none
      obtain ⟨-, hm⟩ | ⟨hstart, content, -, hm⟩ := send_cases hr
      · rw [hm]
        exact .inl rfl
      · rw [hm]
        exact .inl (hcreate _ fun e => hnot (hstart.trans (congrArg some e)))
  | sendNextChunk connectionId mem faults =>
      obtain rfl := Option.some.inj hs
      unfold find?
      dsimp only [withManager, manager]
      obtain hm | ⟨key', context, context', hkey, hm⟩ :=
        FileTransferManager.sendNextChunk_cases s.fs s.manager connectionId mem faults
      · rw [hm]
        exact .inl rfl
      · rw [hm]
        refine .inl (FileTransferManager.find?_setContext_of_ne _ _ fun e => hnot ?_)
        show (s.manager.findTransfer connectionId).map Prod.fst = _
        rw [hkey, e, Option.map_some]
  | cancelTransfer connectionId =>
      obtain rfl := Option.some.inj hs
      show (s.manager.cancelTransfer connectionId).transfers.find? key = _ ∨
        (s.manager.cancelTransfer connectionId).transfers.find? key = none
      rw [FileTransferManager.find?_cancelTransfer]
      split
      · exact .inr rfl
      · exact .inl rfl
  | connection connected =>
      obtain rfl := Option.some.inj hs
      exact .inl rfl
  | disk fs =>
      obtain rfl := Option.some.inj hs
      exact .inl rfl

/-- A received chunk hands nothing to `Session::Send`. -/
theorem packets_process (s : TransferSession) (p : List UInt8) (env : Surroundings) :
    packets (s.process p env).2.2.2 = [] := by
  have hout := processFileChunk_outcome s.fs s.manager (.read p) env.time env.chunk
  unfold process
  generalize processFileChunk s.fs s.manager (.read p) env.time env.chunk = r at hout ⊢
  obtain ⟨result, fs', m', events⟩ := r
  cases hout with
  | refused => rfl
  | failed => rfl
  | accepted =>
      dsimp only
      split <;> rfl

/-- A chunk leaves a transfer completed. -/
theorem isCompleted_receive_chunk {s : TransferSession} {p : List UInt8} (env : Surroundings)
    (hp : packetId p = fileDataChunk)
    (hdone : ∀ context, s.find? key = some context → context.isCompleted = true) :
    ∀ context, (s.receive p env).find? key = some context → context.isCompleted = true := by
  intro context hafter
  unfold find? at hafter
  rw [s.receive_chunk env hp] at hafter
  have hout := processFileChunk_outcome s.fs s.manager (.read p) env.time env.chunk
  change (processFileChunk _ _ _ _ _).2.2.1.transfers.find? key = _ at hafter
  generalize processFileChunk s.fs s.manager (.read p) env.time env.chunk = r at hafter hout
  obtain ⟨result, fs', m', events⟩ := r
  cases hout with
  | refused => exact hdone context hafter
  | failed id before hlast =>
      rcases FileTransferManager.find?_setContext_cases hafter with ⟨rfl, rfl⟩ | hbefore
      · exact hdone before (find?_of_latest? hlast)
      · exact hdone context hbefore
  | accepted id before hlast =>
      rcases FileTransferManager.find?_setContext_cases hafter with ⟨rfl, rfl⟩ | hbefore
      · rw [FileTransferContext.isCompleted_accept, hdone before (find?_of_latest? hlast)]
        rfl
      · exact hdone context hbefore

/-- **One more step**: what it hands over comes behind what there is. -/
theorem Accounts.append {t t' : Run} {l : TransferStep} {chunks : List Handed}
    (hI : Accounts key filePath request n chunkSize t chunks) (hs : traced next t l = some t')
    (hslices : ∀ (i : Nat) (e : Handed), (t.state.handedBy key filePath l)[i]? = some e →
      e.IsSlice n chunkSize (chunks.length + i))
    (hphase : Phase key filePath n chunkSize
      (chunks.length + (t.state.handedBy key filePath l).length) t') :
    Accounts key filePath request n chunkSize t' (chunks ++ t.state.handedBy key filePath l) := by
  obtain ⟨first, hhanded, hfirst⟩ := hI.handedOver
  obtain ⟨-, hhistory⟩ := traced_eq_some_iff.mp hs
  refine ⟨⟨first, ?_, hfirst⟩, fun i e he => ?_, ?_⟩
  · rw [hhistory]
    unfold handed
    rw [hhanded, List.cons_append]
  · rcases Nat.lt_or_ge i chunks.length with hlt | hge
    · rw [List.getElem?_append_left hlt] at he
      exact hI.slices i e he
    · rw [List.getElem?_append_right hge] at he
      have h := hslices _ e he
      rwa [Nat.add_sub_cancel' hge] at h
  · rw [List.length_append]
    exact hphase

/-- A step that hands over nothing. -/
theorem handedBy_eq_nil {s : TransferSession} {l : TransferStep}
    (h : packets (s.ownEvents key l) = []) : s.handedBy key filePath l = [] := by
  unfold handedBy
  rw [h, List.map_nil]

/-- **A step that does nothing for the transfer** leaves it as it is, or cancels it. -/
theorem Accounts.idle {t t' : Run} {l : TransferStep} {chunks : List Handed}
    (hI : Accounts key filePath request n chunkSize t chunks) (hs : traced next t l = some t')
    (hown : t.state.ownEvents key l = [])
    (hfind : t'.state.find? key = t.state.find? key ∨ t'.state.find? key = none) :
    Accounts key filePath request n chunkSize t' (chunks ++ t.state.handedBy key filePath l) := by
  obtain ⟨-, hhistory⟩ := traced_eq_some_iff.mp hs
  have hnone : t.state.handedBy key filePath l = [] := handedBy_eq_nil (by rw [hown]; rfl)
  have hreported : reported key t'.history = reported key t.history := by
    rw [hhistory, reported_cons, hown]
    exact Bool.or_false _
  refine hI.append hs (fun i e he => ?_) ?_
  · rw [hnone] at he
    nomatch he
  · rw [hnone]
    rcases hfind with hsame | hgone
    · cases hI.phase with
      | sending hfind hnot hno =>
          exact .sending (hsame.trans hfind) hnot (hreported.trans hno)
      | finished hcount hdone => exact .finished hcount fun context h => hdone context (hsame ▸ h)
      | cancelled hfind hno => exact .cancelled (hsame.trans hfind) (hreported.trans hno)
    · cases hI.phase with
      | sending _ _ hno => exact .cancelled hgone (hreported.trans hno)
      | finished hcount => exact .finished hcount fun context h => nomatch hgone.symm.trans h
      | cancelled _ hno => exact .cancelled hgone (hreported.trans hno)

/-- **A received chunk that goes to the transfer** finds it completed, or no file for it. -/
theorem Accounts.chunk {t t' : Run} {p : List UInt8} {env : Surroundings} {chunks : List Handed}
    (hI : Accounts key filePath request n chunkSize t chunks)
    (hok : Undisturbed key t (.packet p env)) (hs : traced next t (.packet p env) = some t')
    (hp : packetId p = fileDataChunk) {context : FileTransferContext}
    (hlast : t.state.latest? = some (key, context)) :
    Accounts key filePath request n chunkSize t'
      (chunks ++ t.state.handedBy key filePath (.packet p env)) := by
  have hnext : t.state.receive p env = t'.state := Option.some.inj (traced_eq_some_iff.mp hs).1
  have hworks : t.state.worksOn (.packet p env) = some key := by
    unfold worksOn
    dsimp only
    rw [if_pos hp, hlast, Option.map_some]
  have hown : t.state.ownEvents key (.packet p env) = (t.state.process p env).2.2.2 :=
    (if_pos hworks).trans (if_pos hp)
  have hfind := find?_of_latest? hlast
  by_cases hcan : CanOpen t.state.fs context env.chunk
  · have hdone := hok.chunk p env rfl hp context hlast hcan
    have hnone : t.state.handedBy key filePath (.packet p env) = [] :=
      handedBy_eq_nil (by rw [hown, packets_process])
    refine hI.append hs (fun i e he => ?_) ?_
    · rw [hnone] at he
      nomatch he
    · rw [hnone]
      cases hI.phase with
      | sending hbefore hnot =>
          obtain rfl := Option.some.inj (hfind.symm.trans hbefore)
          exact absurd (of_decide_eq_true hdone) hnot
      | finished hcount hdone =>
          exact .finished hcount (hnext ▸ isCompleted_receive_chunk env hp hdone)
      | cancelled hbefore => nomatch hfind.symm.trans hbefore
  · obtain ⟨fs', hprocess, -⟩ : ∃ fs', t.state.process p env =
        (false, fs', t.state.manager, []) ∧ fs'.files = t.state.fs.files :=
      process_of_not_canOpen p fun key' latest hlast' => by
        obtain ⟨-, rfl⟩ := Prod.mk.inj (Option.some.inj (hlast'.symm.trans hlast))
        exact hcan
    refine hI.idle hs (by rw [hown, hprocess]) (.inl ?_)
    rw [← hnext, t.state.receive_chunk env hp, hprocess]
    rfl

/-- **A call of SendNextChunk for the transfer.** -/
theorem Accounts.call (hn : n < 2 ^ 64) (hc : 1 ≤ chunkSize) {t t' : Run} {connectionId : Nat}
    {mem : Memory} {faults : SendFaults} {chunks : List Handed}
    (hI : Accounts key filePath request n chunkSize t chunks)
    (hs : traced next t (.sendNextChunk connectionId mem faults) = some t')
    {context : FileTransferContext}
    (hfind : t.state.manager.findTransfer connectionId = some (key, context)) :
    Accounts key filePath request n chunkSize t'
        (chunks ++ t.state.handedBy key filePath (.sendNextChunk connectionId mem faults)) ∧
      (Connected key t (.sendNextChunk connectionId mem faults) →
        dropped (t.state.handedBy key filePath (.sendNextChunk connectionId mem faults)) = []) := by
  obtain ⟨hnext, hhistory⟩ := traced_eq_some_iff.mp hs
  have hfound : t.state.find? key = some context := FileTransferManager.find?_of_findTransfer hfind
  have hworks : t.state.worksOn (.sendNextChunk connectionId mem faults) = some key := by
    show (t.state.manager.findTransfer connectionId).map Prod.fst = _
    rw [hfind, Option.map_some]
  have hown : t.state.ownEvents key (.sendNextChunk connectionId mem faults) =
      (t.state.manager.sendNextChunk t.state.fs connectionId mem faults).2.2 := if_pos hworks
  have hnext' : (t.state.manager.sendNextChunk t.state.fs connectionId mem
      faults).2.1.transfers.find? key = t'.state.find? key := by
    rw [← Option.some.inj hnext]
    rfl
  have hslice : ∀ {j}, context = contextAfter filePath n chunkSize j →
      ¬ max 1 (sliceCount n chunkSize) ≤ j →
        t.state.SliceCall key filePath n chunkSize j connectionId faults
          (t.state.manager.sendNextChunk t.state.fs connectionId mem faults).2 :=
    fun {j} e hnot => t.state.sliceCall mem faults hn hc (e ▸ hfind) hnot
  have hidle : context.isCompleted = true →
      t.state.manager.sendNextChunk t.state.fs connectionId mem faults =
        (true, t.state.manager, []) := fun hdone => by
    unfold FileTransferManager.sendNextChunk
    rw [hfind]
    exact if_pos hdone
  have happend := hI.append hs
  have hstays := hI.idle hs
  have hreported : reported key _ = _ := reported_cons t.state
    (.sendNextChunk connectionId mem faults) t.history
  unfold handedBy at happend hstays ⊢
  rw [← hhistory] at hreported
  rw [hown] at happend hstays hreported ⊢
  generalize t.state.manager.sendNextChunk t.state.fs connectionId mem faults = r at *
  obtain ⟨result, m, events⟩ := r
  dsimp only at *
  cases hI.phase with
  | cancelled hnone => nomatch hfound.symm.trans hnone
  | finished _ hdone =>
      obtain ⟨-, rfl, rfl⟩ : _ ∧ m = t.state.manager ∧ events = [] := by
        simpa using hidle (hdone context hfound)
      exact ⟨hstays rfl (.inl hnext'.symm), fun _ => rfl⟩
  | sending hbefore hnot hno =>
      obtain rfl := Option.some.inj (hfound.symm.trans hbefore)
      cases hslice rfl hnot with
      | nothing _ hsame =>
          exact ⟨hstays rfl (.inl (hnext'.symm.trans (hsame.trans hfound.symm))), fun _ => rfl⟩
      | slice content p hfile hread halloc hj hp =>
          have hpackets : packets [.send p, if chunks.length + 1 = sliceCount n chunkSize then
              .complete connectionId true filePath else .schedule connectionId] = [p] := by
            split <;> rfl
          have hafter : t'.state.find? key =
              some (contextAfter filePath n chunkSize (chunks.length + 1)) :=
            hnext'.symm.trans (FileTransferManager.find?_setContext_self ..)
          rw [hpackets] at happend ⊢
          refine ⟨happend (fun i e he => ?_) ?_, fun hconnected => ?_⟩
          · obtain ⟨hi, rfl⟩ := List.getElem?_eq_some_iff.mp he
            obtain rfl : i = 0 := Nat.lt_one_iff.mp hi
            exact ⟨content, hfile, hp⟩
          · rw [List.length_map, List.length_singleton]
            by_cases hl : chunks.length + 1 = sliceCount n chunkSize
            · refine .finished hl fun context' h => ?_
              obtain rfl := Option.some.inj (hafter.symm.trans h)
              exact decide_eq_true (by omega)
            · refine .sending hafter (by omega) ?_
              rw [hreported, hno, if_neg hl]
              rfl
          · have hlt := (lt_sliceCount hc chunks.length).mp hj
            have hrem : (contextAfter filePath n chunkSize chunks.length).remainingBytes ≠ 0 := by
              show (contextAfter filePath n chunkSize chunks.length).opened.remainingBytes ≠ 0
              rw [remainingBytes_contextAfter hn]
              omega
            have h := hconnected _ hfind (decide_eq_false hnot) hrem
              (fun h => nomatch hfile.symm.trans h) hread halloc
            unfold dropped
            rw [List.map_singleton, List.filter_singleton, h]
            rfl
      | empty context' hnone hj hdone =>
          refine ⟨happend nofun (.finished (hj.trans hnone.symm) fun context h => ?_), fun _ => rfl⟩
          obtain rfl := Option.some.inj ((FileTransferManager.find?_setContext_self ..).symm.trans
            (hnext'.trans h))
          exact hdone

/-- **One step** of a session where the transfer stays one that is sent. -/
theorem Accounts.step (hn : n < 2 ^ 64) (hc : 1 ≤ chunkSize) {t t' : Run} {l : TransferStep}
    {chunks : List Handed} (hI : Accounts key filePath request n chunkSize t chunks)
    (hok : Undisturbed key t l) (hs : traced next t l = some t') :
    Accounts key filePath request n chunkSize t' (chunks ++ t.state.handedBy key filePath l) ∧
      (Connected key t l → dropped (t.state.handedBy key filePath l) = []) := by
  by_cases hworks : t.state.worksOn l = some key
  · cases l with
    | packet p env =>
        by_cases hp : packetId p = fileDataChunk
        · obtain ⟨⟨key', context⟩, hlast, rfl⟩ : ∃ r, t.state.latest? = some r ∧ r.1 = key :=
            Option.map_eq_some_iff.mp ((if_pos hp).symm.trans hworks)
          refine ⟨hI.chunk hok hs hp hlast, fun _ => ?_⟩
          have hown : t.state.ownEvents key' (.packet p env) = (t.state.process p env).2.2.2 :=
            (if_pos hworks).trans (if_pos hp)
          rw [handedBy_eq_nil (by rw [hown, packets_process])]
          rfl
        · exact absurd ((if_neg hp).symm.trans hworks) hok.start
    | startFileSend => exact absurd hworks hok.start
    | sendNextChunk connectionId mem faults =>
        obtain ⟨⟨key', context⟩, hfind, rfl⟩ := Option.map_eq_some_iff.mp hworks
        exact hI.call hn hc hs hfind
    | cancelTransfer | connection | disk => nomatch hworks
  · have hown : t.state.ownEvents key l = [] := if_neg hworks
    refine ⟨hI.idle hs hown (find?_of_not_worksOn (traced_eq_some_iff.mp hs).1 hworks),
      fun _ => ?_⟩
    rw [handedBy_eq_nil (by rw [hown]; rfl)]
    rfl

end Run

/-- The transfer right after its start. -/
theorem Accounts.start {s s' : TransferSession} {key : Nat} {filePath : Path}
    {content : List UInt8} {chunkSize : Nat} {mem : Memory} {openFails : Bool}
    (hfile : s.fs.files filePath = some content) (hlen : content.length < 2 ^ 64)
    (hstart : s.started (.startFileSend filePath chunkSize mem openFails) = some key)
    (hs : s.next (.startFileSend filePath chunkSize mem openFails) = some s') :
    ∃ request, createFileRequestPacket mem filePath content.length chunkSize = some request ∧
      handed key filePath [(s, .startFileSend filePath chunkSize mem openFails)] =
        [⟨request, s.connected, some content⟩] ∧
      Accounts key filePath request content.length chunkSize
        (sent s (.startFileSend filePath chunkSize mem openFails) s') [] := by
  obtain ⟨⟨result, m, events⟩, hr, rfl⟩ := Option.map_eq_some_iff.mp hs
  obtain ⟨rfl, rfl, -⟩ | ⟨content', request, hfile', -, rfl, hrequest, rfl, rfl⟩ :=
    FileTransferManager.startFileSend_cases hr
  · have hnone : s.started (.startFileSend filePath chunkSize mem openFails) = none := by
      unfold started
      dsimp only
      rw [hr]
      rfl
    nomatch hnone.symm.trans hstart
  · obtain rfl := Option.some.inj (hfile.symm.trans hfile')
    rw [show u64 content.length = content.length from Nat.mod_eq_of_lt hlen] at hrequest
    have hkey : key = s.manager.nextConnectionId := by
      unfold started at hstart
      dsimp only at hstart
      rw [hr] at hstart
      exact (Option.some.inj hstart).symm
    have hown : s.ownEvents key (.startFileSend filePath chunkSize mem openFails) =
        [.send request] := by
      refine (if_pos hstart).trans ?_
      unfold events
      dsimp only
      rw [hr]
      rfl
    have hhanded : handed key filePath [(s, .startFileSend filePath chunkSize mem openFails)] =
        [⟨request, s.connected, some content⟩] := by
      unfold handed handedBy
      rw [hown, hfile]
      rfl
    refine ⟨request, hrequest, hhanded, ⟨⟨_, hhanded, rfl⟩, nofun, .sending ?_ (by simp) ?_⟩⟩
    · rw [List.length_nil, ← contextAfter_zero hlen, hkey]
      exact FileTransferManager.find?_setContext_self ..
    · unfold sent
      rw [reported_cons, hown]
      rfl

/-- **A sender's success**, over the runs from a `StartFileSend` that succeeded. Where the transfer
    stays one that is sent, what is reported is true just when nothing was left out; and nothing is
    where the session is connected for the request and for every slice. -/
theorem success_law (s s' : TransferSession) (key : Nat) (filePath : Path) (content : List UInt8)
    (chunkSize : Nat) (mem : Memory) (openFails : Bool)
    (hfile : s.fs.files filePath = some content) (hlen : content.length < 2 ^ 64)
    (hc : 1 ≤ chunkSize)
    (hstart : s.started (.startFileSend filePath chunkSize mem openFails) = some key)
    (hs : s.next (.startFileSend filePath chunkSize mem openFails) = some s') :
    ∃ request, createFileRequestPacket mem filePath content.length chunkSize = some request ∧
      (∀ t, Reach (traced next) (Undisturbed key)
          (sent s (.startFileSend filePath chunkSize mem openFails) s') t →
        (Truthful key filePath request content.length chunkSize t ↔
          (reported key t.history = true → dropped (handed key filePath t.history) = []))) ∧
      (s.connected = true →
        ∀ t, Reach (traced next) (fun t l => Undisturbed key t l ∧ Connected key t l)
            (sent s (.startFileSend filePath chunkSize mem openFails) s') t →
          dropped (handed key filePath t.history) = [] ∧
            Truthful key filePath request content.length chunkSize t) := by
  obtain ⟨request, hrequest, hhanded, hI₀⟩ := Accounts.start hfile hlen hstart hs
  refine ⟨request, hrequest, fun t hr => ?_, fun hconnected t hr => ?_⟩
  · obtain ⟨chunks, hI⟩ := hr.invariant
      (I := fun t => ∃ chunks, Accounts key filePath request content.length chunkSize t chunks)
      ⟨[], hI₀⟩ fun t t' l ⟨_, h⟩ hok hs => ⟨_, (h.step hlen hc hok hs).1⟩
    exact hI.truthful_iff
  · have hinv : (∃ chunks, Accounts key filePath request content.length chunkSize t chunks) ∧
        dropped (handed key filePath t.history) = [] := by
      refine hr.invariant (I := fun t =>
        (∃ chunks, Accounts key filePath request content.length chunkSize t chunks) ∧
          dropped (handed key filePath t.history) = []) ⟨⟨[], hI₀⟩, ?_⟩ ?_
      · show dropped (handed key filePath [(s, _)]) = []
        rw [hhanded, hconnected]
        rfl
      · rintro t t' l ⟨⟨chunks, h⟩, hnone⟩ hok hs
        obtain ⟨hnext, hdropped⟩ := h.step hlen hc hok.1 hs
        refine ⟨⟨_, hnext⟩, ?_⟩
        rw [(traced_eq_some_iff.mp hs).2]
        refine (dropped_append _ _).trans ?_
        rw [hnone, hdropped hok.2, List.append_nil]
    obtain ⟨⟨chunks, hI⟩, hnone⟩ := hinv
    exact ⟨hnone, hI.truthful_iff.mpr fun _ => hnone⟩

/-! ## 6. A file that is sent -/

/-- The start of a file `a`. -/
theorem exists_sending {content : List UInt8} {chunkSize : Nat} (hlen : content.length < 2 ^ 64) :
    let s := (start (FileSystem.empty.setFile [0x61] content) [0x2E] true).state
    ∃ s', s.next (.startFileSend [0x61] chunkSize (fun _ => 0) false) = some s' ∧
      s.started (.startFileSend [0x61] chunkSize (fun _ => 0) false) = some 1 ∧
      s'.find? 1 = some (contextAfter [0x61] content.length chunkSize 0) ∧ s'.fs = s.fs ∧
      s'.connected = true := by
  intro s
  obtain ⟨packet, -, hstart⟩ := startFileSend_of_file .new chunkSize (fun _ => 0)
    (show (FileSystem.empty.setFile [0x61] content).files [0x61] = some content from rfl) hlen
    (by decide)
  have hstart' : s.manager.startFileSend s.fs [0x61] chunkSize (fun _ => 0) false = _ := hstart
  refine ⟨s.withManager (FileTransferManager.new.bump.setContext 1
    (contextAfter [0x61] content.length chunkSize 0)), ?_, ?_,
      FileTransferManager.find?_setContext_self .., rfl, rfl⟩
  · unfold next
    dsimp only
    rw [hstart']
    rfl
  · unfold started
    dsimp only
    rw [hstart']
    rfl

/-- The call that hands over the slice `j`. -/
theorem exists_slice (t : Run) {key : Nat} {filePath : Path} {content : List UInt8}
    {chunkSize j : Nat} (hfile : t.state.fs.files filePath = some content)
    (hlen : content.length < 2 ^ 64) (hc : 1 ≤ chunkSize)
    (hfind : t.state.find? key = some (contextAfter filePath content.length chunkSize j))
    (hj : j < sliceCount content.length chunkSize) :
    ∃ t' p, traced next t (.sendNextChunk key (fun _ => 0) .none) = some t' ∧
      t'.state.find? key = some (contextAfter filePath content.length chunkSize (j + 1)) ∧
      t'.state.fs = t.state.fs ∧ t'.state.connected = t.state.connected ∧
      t'.history = (t.state, .sendNextChunk key (fun _ => 0) .none) :: t.history ∧
      t.state.ownEvents key (.sendNextChunk key (fun _ => 0) .none) =
        [.send p, if j + 1 = sliceCount content.length chunkSize then .complete key true filePath
          else .schedule key] := by
  have hown := FileTransferManager.findTransfer_of_find? hfind
  obtain ⟨p, -, -, hsend⟩ := sendNextChunk_of_lt (fun _ => 0) hfile hlen hc hown hj
  have hworks : t.state.worksOn (.sendNextChunk key (fun _ => 0) .none) = some key := by
    show (t.state.manager.findTransfer key).map Prod.fst = _
    rw [hown, Option.map_some]
  refine ⟨⟨_, (t.state, .sendNextChunk key (fun _ => 0) .none) :: t.history⟩, p,
    traced_eq_some_iff.mpr ⟨rfl, rfl⟩, ?_, rfl, rfl, rfl, (if_pos hworks).trans ?_⟩
  · show (t.state.manager.sendNextChunk _ _ _ _).2.1.transfers.find? key = _
    rw [hsend]
    exact FileTransferManager.find?_setContext_self ..
  · show (t.state.manager.sendNextChunk _ _ _ _).2.2 = _
    rw [hsend]

/-- A call of `SendNextChunk` disturbs nothing. -/
theorem undisturbed_sendNextChunk (key : Nat) (t : Run) (connectionId : Nat) (mem : Memory)
    (faults : SendFaults) : Undisturbed key t (.sendNextChunk connectionId mem faults) :=
  ⟨nofun, fun _ _ h => TransferStep.noConfusion h⟩

/-- Three bytes in two chunks, on a session that stays connected: the report is true. -/
theorem success_law_two_slices :
    ∃ s' t request,
      let s := (start (FileSystem.empty.setFile [0x61] [1, 2, 3]) [0x2E] true).state
      Reach (traced next) (fun t l => Undisturbed 1 t l ∧ Connected 1 t l)
          (sent s (.startFileSend [0x61] 2 (fun _ => 0) false) s') t ∧
        reported 1 t.history = true ∧ Truthful 1 [0x61] request 3 2 t := by
  obtain ⟨s', hs, hstart, hfind, hfs, hconnected⟩ :=
    @exists_sending [1, 2, 3] 2 (by decide)
  generalize hs₀ : (start (FileSystem.empty.setFile [0x61] [1, 2, 3]) [0x2E] true).state = s at *
  obtain ⟨request, -, -, hlaw⟩ := success_law s s' 1 [0x61] [1, 2, 3] 2 (fun _ => 0) false
    (by rw [← hs₀]; rfl) (by decide) (by decide) hstart hs
  have hfile : s'.fs.files [0x61] = some [1, 2, 3] := by
    rw [hfs, ← hs₀]
    rfl
  obtain ⟨t₁, p₁, hnext₁, hfind₁, hfs₁, hconnected₁, -, -⟩ :=
    exists_slice (sent s (.startFileSend [0x61] 2 (fun _ => 0) false) s') hfile (by decide)
      (by decide) hfind (by decide)
  obtain ⟨t₂, p₂, hnext₂, -, -, -, hhistory, hown⟩ := exists_slice t₁
    (by rw [hfs₁]; exact hfile) (by decide) (by decide) hfind₁ (by decide)
  have hr : Reach (traced next) (fun t l => Undisturbed 1 t l ∧ Connected 1 t l) _ t₂ :=
    .step _ _ _ (.step _ _ _ .start
      ⟨undisturbed_sendNextChunk .., fun _ _ _ _ _ _ _ => hconnected⟩ hnext₁)
      ⟨undisturbed_sendNextChunk .., fun _ _ _ _ _ _ _ => hconnected₁.trans hconnected⟩ hnext₂
  refine ⟨s', t₂, request, hr, ?_, (hlaw (by rw [← hs₀]; rfl) t₂ hr).2⟩
  rw [hhistory, reported_cons, hown]
  exact Bool.or_true _

/-- **A disconnect between the start and the only slice**: the success is reported, the slice is
    not queued. -/
theorem success_without_slice :
    ∃ s' t request,
      let s := (start (FileSystem.empty.setFile [0x61] [7]) [0x2E] true).state
      s.started (.startFileSend [0x61] 1 (fun _ => 0) false) = some 1 ∧
        s.next (.startFileSend [0x61] 1 (fun _ => 0) false) = some s' ∧
        createFileRequestPacket (fun _ => 0) [0x61] 1 1 = some request ∧
        Reach (traced next) (Undisturbed 1)
          (sent s (.startFileSend [0x61] 1 (fun _ => 0) false) s') t ∧
        reported 1 t.history = true ∧ ¬ Truthful 1 [0x61] request 1 1 t := by
  obtain ⟨s', hs, hstart, hfind, hfs, -⟩ := @exists_sending [7] 1 (by decide)
  generalize hs₀ : (start (FileSystem.empty.setFile [0x61] [7]) [0x2E] true).state = s at *
  obtain ⟨request, hrequest, -, hI₀⟩ := Accounts.start (by rw [← hs₀]; rfl) (by decide) hstart hs
  have hlost : traced next (sent s (.startFileSend [0x61] 1 (fun _ => 0) false) s')
      (.connection false) =
        some ⟨{ s' with connected := false }, (s', .connection false) :: _⟩ := rfl
  obtain ⟨t, p, hnext, -, -, -, hhistory, hown⟩ := exists_slice
    ⟨{ s' with connected := false }, (s', .connection false) ::
      [(s, .startFileSend [0x61] 1 (fun _ => 0) false)]⟩
    (by show s'.fs.files [0x61] = _; rw [hfs, ← hs₀]; rfl) (by decide) (by decide) hfind (by decide)
  have hquiet : Undisturbed 1 (sent s (.startFileSend [0x61] 1 (fun _ => 0) false) s')
      (.connection false) := ⟨nofun, fun _ _ h => TransferStep.noConfusion h⟩
  have hI₁ := (hI₀.step (by decide) (by decide) hquiet hlost).1
  have hI₂ := (hI₁.step (by decide) (by decide) (undisturbed_sendNextChunk ..) hnext).1
  have hreported : reported 1 t.history = true := by
    rw [hhistory, reported_cons, hown]
    exact Bool.or_true _
  refine ⟨s', t, request, hstart, hs, hrequest,
    .step _ _ _ (.step _ _ _ .start hquiet hlost) (undisturbed_sendNextChunk ..) hnext,
    hreported, fun h => ?_⟩
  have hdropped := hI₂.truthful_iff.mp h hreported
  rw [hhistory] at hdropped
  have hlast := (List.append_eq_nil_iff.mp ((dropped_append _ _).symm.trans hdropped)).2
  unfold handedBy at hlast
  rw [hown] at hlast
  nomatch hlast

end TransferSession

end ServerCore
