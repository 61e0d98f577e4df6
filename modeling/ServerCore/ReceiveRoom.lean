/-
  File:      ServerCore/ReceiveRoom.lean
  Subject:   The receive loop of a PacketSession never runs out of room.

  What is unread after a read is an incomplete packet, at most 65534 bytes, and `Clean` has freed
  the room of one read: so each read is issued with at least `BUFFER_SIZE` bytes of room, and what
  it brings always fits. The runs are those of the receive path (`RecvHistory.next`): reads that
  succeed with any bytes that fit, reads that fail, `Disconnect` by other code at any moment, and
  the next connection of a session whose read has completed. What was received is kept beside the
  session, since the law holds as long as the stream has no packet of size 0.
-/
import ServerCore.Lib.Trans
import ServerCore.Reassembly

namespace ServerCore

open Trans

/-- A session's receive path, and all the bytes its reads have brought. -/
structure RecvHistory where
  session : RecvSession
  received : List UInt8

/-- What happens to the receive path next. -/
inductive RecvEvent where
  /-- the outstanding read succeeds with these bytes -/
  | read (bytes : List UInt8)
  /-- the outstanding read fails: `Disconnect("RegisterRecv Error")` -/
  | error
  /-- other code calls `Disconnect` -/
  | disconnect
  /-- `ProcessConnect` of a session that is not connected and has no read outstanding -/
  | connect
  deriving DecidableEq, Repr

namespace RecvHistory

/-- **The step function of the receive path.** A read brings at least one byte and at most the
    room it was given. -/
def next (h : RecvHistory) : RecvEvent → Option RecvHistory
  | .read bytes =>
      match h.session.reading with
      | none => none
      | some (pos, room) =>
          if 1 ≤ bytes.length ∧ bytes.length ≤ room then
            match h.session.onReadSome pos bytes with
            | .error _ => none
            | .ok s => some ⟨s, h.received ++ bytes⟩
          else none
  | .error =>
      match h.session.reading with
      | none => none
      | some _ => some { h with session := { h.session with reading := none }.disconnect }
  | .disconnect => some { h with session := h.session.disconnect }
  | .connect =>
      if h.session.connected = false ∧ h.session.reading = none then
        some { h with session := { h.session with connected := true }.registerRecv }
      else none

/-- A session just connected, its first read issued. -/
def connected₀ : RecvHistory := ⟨.connected₀, []⟩

/-- What is received has no packet of size 0. -/
def NoZeroSize (h : RecvHistory) : RecvEvent → Prop
  | .read bytes => packetFramer.Positive (h.received ++ bytes)
  | .error | .disconnect | .connect => True

/-- **The invariant of the receive path**, connected or not: the unread bytes are the tail of the
    parse of what was received, and a read outstanding was given all the room there is. -/
structure RoomInv (h : RecvHistory) : Prop where
  wf : h.session.recvBuffer.Wf
  size : h.session.recvBuffer.bufferSize = Session.bufferSize
  free : Session.bufferSize ≤ h.session.recvBuffer.freeSize
  parsed : ∃ ps, packetFramer.Parse h.received ps h.session.recvBuffer.unread
  reading : ∀ r, h.session.reading = some r →
    r = (h.session.recvBuffer.writePos.toNat, h.session.recvBuffer.freeSize.toNat)
  connected : h.session.connected = true → h.session.reading ≠ none

theorem roomInv_connected₀ : RoomInv connected₀ where
  wf := RecvSession.recvInv_connected₀.wf
  size := rfl
  free := RecvSession.recvInv_connected₀.free
  parsed := by
    have hun : connected₀.session.recvBuffer.unread = [] := RecvBuffer.unread_new _
    rw [hun]
    exact ⟨[], .stop rfl⟩
  reading r hr := by
    cases hr
    rfl
  connected _ := Option.some_ne_none _

/-- **A read of the free space goes on**, whatever it brings. -/
theorem RoomInv.goesOn {h : RecvHistory} (hI : RoomInv h) {bytes : List UInt8}
    (hfit : (bytes.length : Int) ≤ h.session.recvBuffer.freeSize)
    (hpos : packetFramer.Positive (h.received ++ bytes)) :
    ∃ written read cleaned processLen calls ps,
      RecvSession.ReadGoesOn h.session h.session.recvBuffer.writePos.toNat bytes written read
        cleaned processLen calls ∧
      cleaned.Wf ∧ cleaned.bufferSize = Session.bufferSize ∧
      packetFramer.Parse (h.received ++ bytes) ps cleaned.unread := by
  obtain ⟨ps, t, hp⟩ := Framer.exists_parse hpos
  obtain ⟨ps₀, hp₀⟩ := hI.parsed
  -- the parse of the stream goes on from the tail that is unread
  obtain ⟨ps₁, t₁, ps₂, hp₁, hp₂, -⟩ := hp.split
  obtain ⟨-, rfl⟩ := hp₁.unique hp₀
  obtain ⟨written, read, cleaned, processLen, calls, hgoes, hwf, hsize, rfl, -⟩ :=
    RecvSession.readGoesOn_of_parse hI.wf hI.size hfit hp₂
  exact ⟨written, read, cleaned, processLen, calls, ps, hgoes, hwf, hsize, hp⟩

/-- `RegisterRecv` gives the read all the room there is. -/
theorem roomInv_registerRecv {s : RecvSession} {received : List UInt8} (hwf : s.recvBuffer.Wf)
    (hsize : s.recvBuffer.bufferSize = Session.bufferSize)
    (hfree : Session.bufferSize ≤ s.recvBuffer.freeSize)
    (hp : ∃ ps, packetFramer.Parse received ps s.recvBuffer.unread) (hnone : s.reading = none) :
    RoomInv ⟨s.registerRecv, received⟩ := by
  unfold RecvSession.registerRecv
  cases hconn : s.connected with
  | false =>
      refine ⟨hwf, hsize, hfree, hp, fun r hr => ?_, fun hc => ?_⟩
      · cases hnone.symm.trans hr
      · cases hconn.symm.trans hc
  | true =>
      refine ⟨hwf, hsize, hfree, hp, fun r hr => ?_, fun _ => Option.some_ne_none _⟩
      cases hr
      rfl

/-- **One event** keeps the invariant. -/
theorem RoomInv.step {h h' : RecvHistory} {e : RecvEvent} (hI : RoomInv h)
    (hok : NoZeroSize h e) (hs : h.next e = some h') : RoomInv h' := by
  cases e with
  | read bytes =>
      simp only [next] at hs
      cases hread : h.session.reading with
      | none =>
          rw [hread] at hs
          nomatch hs
      | some r =>
          obtain rfl := hI.reading r hread
          rw [hread] at hs
          dsimp only at hs
          split at hs
          · rename_i hroom
            have hfit : (bytes.length : Int) ≤ h.session.recvBuffer.freeSize := by
              have hpos := hI.free
              unfold Session.bufferSize at hpos
              omega
            obtain ⟨_, _, cleaned, _, calls, ps, hgoes, hwf, hsize, hp⟩ := hI.goesOn hfit hok
            rw [hgoes.onReadSome] at hs
            cases hs
            exact roomInv_registerRecv hwf hsize hgoes.free ⟨ps, hp⟩ rfl
          · nomatch hs
  | error =>
      simp only [next] at hs
      split at hs
      · nomatch hs
      · cases hs
        exact ⟨hI.wf, hI.size, hI.free, hI.parsed, fun r hr => (nomatch hr), fun hc => (nomatch hc)⟩
  | disconnect =>
      cases hs
      exact ⟨hI.wf, hI.size, hI.free, hI.parsed, hI.reading, fun hc => (nomatch hc)⟩
  | connect =>
      simp only [next] at hs
      split at hs
      · rename_i hidle
        cases hs
        exact roomInv_registerRecv hI.wf hI.size hI.free hI.parsed hidle.2
      · nomatch hs

/-- **The receive loop never runs out of room.** On every run without a packet of size 0, a
    connected session has a read outstanding that was given all the free space, at least
    `BUFFER_SIZE` bytes, with at most 65534 bytes unread; and every read that can complete goes on:
    `OnWrite` accepts it, the length `OnRecv` returns is accepted, `Clean` copies between ranges
    that are apart, if at all, and the next read has as much room. -/
theorem receive_room (h : RecvHistory) (hr : Reach next NoZeroSize connected₀ h) :
    (h.session.connected = true →
      h.session.reading =
          some (h.session.recvBuffer.writePos.toNat, h.session.recvBuffer.freeSize.toNat) ∧
        h.session.recvBuffer.unread.length ≤ 65534 ∧ 65536 ≤ h.session.recvBuffer.freeSize) ∧
    ∀ pos room bytes, h.session.reading = some (pos, room) → 1 ≤ bytes.length →
      bytes.length ≤ room → NoZeroSize h (.read bytes) →
      ∃ written read cleaned processLen calls,
        RecvSession.ReadGoesOn h.session pos bytes written read cleaned processLen calls ∧
        h.next (.read bytes) = some ⟨RecvSession.registerRecv
          { h.session with
            reading := none, recvBuffer := cleaned, calls := h.session.calls ++ calls },
          h.received ++ bytes⟩ := by
  have hI : RoomInv h := hr.invariant roomInv_connected₀ fun _ _ _ hI hok hs => hI.step hok hs
  constructor
  · intro hconn
    obtain ⟨r, hread⟩ := Option.ne_none_iff_exists'.mp (hI.connected hconn)
    obtain ⟨ps, hp⟩ := hI.parsed
    refine ⟨hread.trans (congrArg some (hI.reading r hread)), ?_, hI.free⟩
    exact length_of_packetFrame_none hp.frame_tail
  · intro pos room bytes hread h1 hroom hok
    obtain ⟨rfl, rfl⟩ := Prod.mk.inj (hI.reading _ hread)
    have hfit : (bytes.length : Int) ≤ h.session.recvBuffer.freeSize := by
      have hpos := hI.free
      unfold Session.bufferSize at hpos
      omega
    obtain ⟨written, read, cleaned, processLen, calls, -, hgoes, -⟩ := hI.goesOn hfit hok
    refine ⟨written, read, cleaned, processLen, calls, hgoes, ?_⟩
    simp only [next, hread, hgoes.onReadSome]
    rw [if_pos ⟨h1, hroom⟩]

/-- A session just connected reads a packet and the header of the next one; and a session that
    other code has disconnected meanwhile does the same. -/
theorem receive_room_first_read :
    (∃ written read cleaned processLen calls,
      RecvSession.ReadGoesOn connected₀.session 0 [5, 0, 1, 0, 9, 4, 0] written read cleaned
        processLen calls) ∧
    ∃ h written read cleaned processLen calls,
      Reach next NoZeroSize connected₀ h ∧ h.session.connected = false ∧
      RecvSession.ReadGoesOn h.session 0 [5, 0, 1, 0, 9, 4, 0] written read cleaned processLen
        calls := by
  have hp : packetFramer.Parse [5, 0, 1, 0, 9, 4, 0] [[5, 0, 1, 0, 9]] [4, 0] :=
    .take (n := 5) (by decide) (by decide) (.stop (by decide))
  have hdisconnected : Reach next NoZeroSize connected₀ _ :=
    .step _ _ .disconnect .start trivial rfl
  constructor
  · obtain ⟨written, read, cleaned, processLen, calls, hgoes, -⟩ :=
      (receive_room connected₀ .start).2 0 655360 [5, 0, 1, 0, 9, 4, 0] rfl (by decide)
        (by decide) hp.positive
    exact ⟨written, read, cleaned, processLen, calls, hgoes⟩
  · obtain ⟨written, read, cleaned, processLen, calls, hgoes, -⟩ :=
      (receive_room _ hdisconnected).2 0 655360 [5, 0, 1, 0, 9, 4, 0] rfl (by decide)
        (by decide) hp.positive
    exact ⟨_, written, read, cleaned, processLen, calls, hdisconnected, rfl, hgoes⟩

end RecvHistory

end ServerCore
