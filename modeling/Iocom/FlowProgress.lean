import Iocom.FlowWindow

/-!
# Progress of flow control

Room for acknowledgements, and that flow control cannot lock up.  An end which
owes an acknowledgement has room for it as long as the window is not too large
for the reserve; and when everything has been received, one of two ends can
write whatever the window is.
-/

namespace Iocom

open AcknowledgedWindow (Item Limits total covered lastAck)

/-- An end which owes an acknowledgement and has no unsent frame may send it. -/
def FlowEnd.AcknowledgementAllowed (e : FlowEnd) : Prop :=
  e.con.frameOutUsed = 0 → e.con.unacknowledgedLimit ≤ e.con.unacknowledged →
    (e.con.ackSize : ℤ) ≤ e.con.maxAckInAir - e.con.inAir

structure Outgoing.Fits (outgoing : Outgoing) (con : Connection) : Prop where
  authentication : (outgoing.authenticationSz : ℤ) ≤ con.frameSz
  next : ∀ size ∈ outgoing.next, (size : ℤ) ≤ con.dstFrameSz

/-- `ioc_connection_send` puts a byte on the wire if the stream takes any. -/
def FlowEnd.Writes (e : FlowEnd) (outgoing : Outgoing) : Prop :=
  (e.con.send outgoing 1 1).1.bytesSent ≠ e.con.bytesSent

structure FlowState.Drained (s : FlowState) : Prop where
  left : s.left.received = s.right.placedBytes
  right : s.right.received = s.left.placedBytes
  leftBuffer : s.left.con.frameOutUsed = 0
  rightBuffer : s.right.con.frameOutUsed = 0

variable {P : Limits} {e peer : FlowEnd}

/-! ## Room for acknowledgements -/

/-- The limit for acknowledgements reserves the owed amount and five more. -/
theorem FlowEnd.Settings.maxAckInAir_ge (h : e.Settings P peer) :
    ((P.window + P.limit + 5 * P.ackSize : ℕ) : ℤ) ≤ e.con.maxAckInAir := by
  have hwindow := h.window
  have hlimit := h.limit_eq
  have hack := h.ackSize
  have hdst : min e.con.frameSz peer.con.frameSz ≤ e.con.dstFrameSz := by
    rw [h.dstFrameSz]
    split
    · exact le_rfl
    · exact min_le_left _ _
  rw [h.maxAckInAir]
  unfold maxInAirOf ackSizeOf at *
  unfold maxAckInAirOf
  cases hkind : e.con.isSocket with
  | true =>
      rw [hkind] at hwindow hlimit hack
      simp only [if_true, socketMaxInAir, socketMaxAckInAir,
        socketUnacknowledgedLimit, socketNroAcksToReserve, socketAckSize] at *
      omega
  | false =>
      rw [hkind] at hwindow hlimit hack
      simp only [Bool.false_eq_true, if_false, serialMaxInAir, serialMaxAckInAir,
        serialRxBufMinSz, serialUnacknowledgedLimit, serialNroAcksToReserve,
        serialAckSize] at *
      omega

theorem FlowEnd.Bounded.inAir_le (h : e.Bounded P peer)
    (hpeer : peer.Bounded P e) : e.con.inAir ≤ e.placedBytes - e.coveredBytes peer := by
  rw [h.inAir_eq hpeer]
  unfold FlowEnd.inAirBytes
  have := e.sentBytes_le
  omega

/-- Bytes in the air which leave room for an acknowledgement. -/
theorem FlowEnd.Bounded.allowed (h : e.Bounded P peer) (hpeer : peer.Bounded P e)
    (hroom : e.placedBytes ≤
      e.coveredBytes peer + P.window + P.limit + 4 * P.ackSize) :
    (e.con.ackSize : ℤ) ≤ e.con.maxAckInAir - e.con.inAir := by
  have hlimit := h.settings.maxAckInAir_ge
  have hinAir := h.inAir_le hpeer
  have hsize : e.con.ackSize = P.ackSize := h.settings.ackSize.symm
  rw [hsize]
  omega

/-- An end which owes an acknowledgement, by the counters or as the first thing
it sends. -/
theorem FlowEnd.Bounded.owes (h : e.Bounded P peer) (hpeer : peer.Bounded P e)
    (howed : e.con.unacknowledgedLimit ≤ e.con.unacknowledged) :
    e.placedBytes = 0 ∨ lastAck e.history + P.limit ≤ e.received := by
  by_cases hplaced : e.placed = []
  · left
    unfold FlowEnd.placedBytes FlowEnd.history
    rw [hplaced]
    rfl
  · right
    rw [h.unacknowledged_eq hpeer hplaced, h.settings.limit] at howed
    have := h.lastAck_le
    have := P.ackSize_pos
    have := P.ackSize_le_limit
    omega

theorem FlowEnd.Bounded.acknowledgementAllowed (h : e.Bounded P peer)
    (hpeer : peer.Bounded P e)
    (hsmall : e.con.isSocket = false ∨
      min e.con.frameSz peer.con.frameSz ≤ 1488) :
    e.AcknowledgementAllowed := by
  intro _ howed
  apply h.allowed hpeer
  rcases h.owes hpeer howed with hnone | howed
  · omega
  refine h.valid.owed_fits hpeer.valid ?_ howed
  have hwindow := h.settings.window
  rw [h.settings.limit_eq, h.settings.ackSize]
  unfold maxInAirOf socketMaxInAir at hwindow
  cases hkind : e.con.isSocket with
  | true =>
      rw [hkind] at hwindow hsmall
      simp only [if_true] at hwindow ⊢
      have hsize : ackSizeOf true = 4 := rfl
      have hframe := hsmall.resolve_left (by decide)
      rw [hsize]
      omega
  | false =>
      rw [hkind] at hwindow
      simp only [Bool.false_eq_true, if_false] at hwindow ⊢
      have hsize : ackSizeOf false = 3 := rfl
      have hserial : serialMaxInAir = 200 := rfl
      rw [hserial] at hwindow
      rw [hsize]
      omega

/-! ## Writing -/

theorem Connection.writeToStream_writes
    {con : Connection} (hpos : con.frameOutPos = 0) (hused : 0 < con.frameOutUsed) :
    (con.writeToStream 1).bytesSent ≠ con.bytesSent := by
  have hwritten : min 1 (con.frameOutUsed - con.frameOutPos) = 1 := by omega
  have hbytes : (con.writeToStream 1).bytesSent =
      (con.bytesSent + 1) % 0x100000000 := by
    unfold Connection.writeToStream
    dsimp only
    rw [if_neg (by omega), hwritten]
    split <;> rfl
  rw [hbytes]
  omega

theorem FlowEnd.Bounded.frameOutPos_eq (h : e.Bounded P peer)
    (hfree : e.con.frameOutUsed = 0) : e.con.frameOutPos = 0 := by
  rcases h.counts.buffer with hlt | ⟨-, hzero⟩
  · omega
  · exact hzero

/-- An end which owes an acknowledgement and has room for it writes. -/
theorem FlowEnd.Bounded.writes_acknowledge (h : e.Bounded P peer)
    (hfree : e.con.frameOutUsed = 0)
    (howed : e.con.unacknowledgedLimit ≤ e.con.unacknowledged)
    (hroom : (e.con.ackSize : ℤ) ≤ e.con.maxAckInAir - e.con.inAir)
    (outgoing : Outgoing) : e.Writes outgoing := by
  have hpos : 0 < e.con.ackSize := by
    unfold Connection.ackSize
    cases e.con.isSocket <;> decide
  have hone : e.con.ackSize ≠ 1 := by
    unfold Connection.ackSize
    cases e.con.isSocket <;> decide
  have hwrites : (e.con.putAcknowledge.1.writeToStream 1).bytesSent ≠
      e.con.bytesSent :=
    Connection.writeToStream_writes (h.frameOutPos_eq hfree) hpos
  -- The acknowledgement does not go out as a whole, so nothing follows it.
  have hused : (e.con.putAcknowledge.1.writeToStream 1).frameOutUsed ≠ 0 := by
    have hsize : e.con.putAcknowledge.1.frameOutUsed = e.con.ackSize := rfl
    have hstart : e.con.putAcknowledge.1.frameOutPos = 0 := h.frameOutPos_eq hfree
    unfold Connection.writeToStream
    dsimp only
    rw [hsize, hstart, if_neg (by omega), if_neg (by omega)]
    dsimp only
    omega
  unfold FlowEnd.Writes Connection.send Connection.acknowledgeAsNeeded
    Connection.sendAcknowledge
  rw [if_neg (not_not.mpr hfree), if_neg (not_lt.mpr hroom),
    if_neg (not_lt.mpr howed), if_neg (not_not.mpr hfree)]
  dsimp only
  rw [if_pos hused]
  exact hwrites

/-- An end which owes nothing writes the frame which it makes. -/
theorem FlowEnd.Bounded.writes_frame (h : e.Bounded P peer)
    (hfree : e.con.frameOutUsed = 0)
    (hquiet : e.con.unacknowledged < e.con.unacknowledgedLimit)
    (hroom : (e.con.ackSize : ℤ) ≤ e.con.maxAckInAir - e.con.inAir)
    {outgoing : Outgoing} {con : Connection} {messages : List FlowMessage}
    (hmade : e.con.makeFrame outgoing = (con, messages))
    (hsent : con.bytesSent = e.con.bytesSent)
    (hposition : con.frameOutPos = e.con.frameOutPos)
    (hused : 0 < con.frameOutUsed) : e.Writes outgoing := by
  have hwrites : (con.writeToStream 1).bytesSent ≠ con.bytesSent :=
    Connection.writeToStream_writes (hposition.trans (h.frameOutPos_eq hfree)) hused
  unfold FlowEnd.Writes Connection.send Connection.acknowledgeAsNeeded
  rw [if_neg (not_not.mpr hfree), if_neg (not_lt.mpr hroom), if_pos hquiet]
  dsimp only
  rw [if_neg (not_not.mpr hfree), hmade]
  dsimp only
  rw [hsent] at hwrites
  exact hwrites

/-! ## Drained lines -/

def FlowEnd.HasToSend (e : FlowEnd) (outgoing : Outgoing) : Prop :=
  e.con.authenticationSent = false ∨ outgoing.next ≠ none

structure FlowEnd.Idle (e peer : FlowEnd) : Prop where
  received : e.received = peer.placedBytes
  free : e.con.frameOutUsed = 0

/-- What an end has in the air the other one has received and not acknowledged. -/
theorem FlowEnd.Bounded.unacknowledged_eq_inAir (h : e.Bounded P peer)
    (hpeer : peer.Bounded P e) (hidle : e.Idle peer) (hpeerIdle : peer.Idle e)
    (hplaced : peer.placed ≠ []) : peer.con.unacknowledged = e.con.inAir := by
  have hsent : e.sentBytes = e.placedBytes := by
    unfold FlowEnd.sentBytes
    rw [hidle.free, Nat.zero_sub, Nat.sub_zero]
  have hcovered : e.coveredBytes peer = lastAck peer.history :=
    AcknowledgedWindow.covered_of_total_le hidle.received.ge
  rw [hpeer.unacknowledged_eq h hplaced, h.inAir_eq hpeer, FlowEnd.inAirBytes, hsent,
    hcovered, hpeerIdle.received]

/-- An end without room for an acknowledgement waits for one. -/
theorem FlowEnd.Bounded.owes_of_blocked (h : e.Bounded P peer)
    (hpeer : peer.Bounded P e) (hidle : e.Idle peer) (hpeerIdle : peer.Idle e)
    (hblocked : e.con.maxAckInAir - e.con.inAir < e.con.ackSize) :
    peer.con.unacknowledgedLimit ≤ peer.con.unacknowledged := by
  by_cases hplaced : peer.placed = []
  · exact hpeer.owes_first h hplaced
  · have hlimit := h.settings.maxAckInAir_ge
    have hsize : e.con.ackSize = P.ackSize := h.settings.ackSize.symm
    rw [h.unacknowledged_eq_inAir hpeer hidle hpeerIdle hplaced, hpeer.settings.limit]
    rw [hsize] at hblocked
    omega

theorem FlowEnd.Bounded.not_both_blocked (h : e.Bounded P peer)
    (hpeer : peer.Bounded P e) (hidle : e.Idle peer) (hpeerIdle : peer.Idle e) :
    (e.con.ackSize : ℤ) ≤ e.con.maxAckInAir - e.con.inAir ∨
      (peer.con.ackSize : ℤ) ≤ peer.con.maxAckInAir - peer.con.inAir := by
  have hvalid : (AcknowledgedWindow.Exchange.mk e.side peer.side).Valid P :=
    ⟨h.valid, hpeer.valid⟩
  rcases hvalid.not_both_full hidle.received hpeerIdle.received with hroom | hroom
  · exact .inl (h.allowed hpeer hroom)
  · exact .inr (hpeer.allowed h hroom)

theorem FlowEnd.Bounded.authenticationReceived (h : e.Bounded P peer)
    (hpeerIdle : peer.Idle e) (hsent : e.con.authenticationSent = true) :
    peer.con.authenticationReceived = true := by
  rw [← Bool.not_eq_false]
  intro hunreceived
  obtain ⟨before, p, after, frameSz, size, hplaced, hmessage, -, hbefore⟩ :=
    h.handshake.sent hsent
  have hlt := hbefore hunreceived
  have hsize : (p.item e.con.isSocket).size = size := by
    unfold Placed.item
    rw [hmessage]
    rfl
  have htotal : total (before.map (Placed.item e.con.isSocket)) + size ≤ e.placedBytes := by
    unfold FlowEnd.placedBytes FlowEnd.history
    rw [hplaced, List.map_append, List.map_cons, total_append_cons, hsize]
    exact Nat.le_add_right _ _
  have hall := hpeerIdle.received
  omega

/-- In the window there is room for a frame beside what is below the limit for
acknowledgements. -/
theorem FlowEnd.Settings.room_for_frame (h : e.Settings P peer)
    (hpeer : peer.Settings P e) {size : ℕ}
    (hsize : (size : ℤ) ≤ e.con.dstFrameSz ∨ size ≤ maxAuthenticationSz ∧
      (size : ℤ) ≤ e.con.frameSz) (hlow : e.con.inAir < P.limit) :
    (size : ℤ) ≤ e.con.maxInAir - e.con.inAir := by
  obtain ⟨hmin, -⟩ := h.dst_bounds hpeer
  have hlimit := h.limit_eq
  unfold minFrameSz at hmin
  unfold maxAuthenticationSz at hsize
  rw [h.maxInAir]
  unfold maxInAirOf
  cases hkind : e.con.isSocket with
  | true =>
      rw [hkind] at hlimit
      simp only [if_true, socketMaxInAir] at hlimit ⊢
      omega
  | false =>
      have hown := h.serial hkind
      have hdst : e.con.dstFrameSz ≤ e.con.frameSz := by
        rw [h.dstFrameSz]
        split
        · exact min_le_left _ _
        · exact le_rfl
      rw [hkind] at hlimit
      simp only [Bool.false_eq_true, if_false, serialMaxInAir, serialRxBufMinSz,
        serialUnacknowledgedLimit, serialNroAcksToReserve, serialAckSize] at hlimit ⊢
      unfold serialFrameSz at hown
      omega

/-- An end which owes nothing and has room writes, unless it waits for the
authentication of the other end, or has nothing to send. -/
theorem FlowEnd.Bounded.writes_or_waits (h : e.Bounded P peer) (hpeer : peer.Bounded P e)
    (hfree : e.con.frameOutUsed = 0)
    (hquiet : e.con.unacknowledged < e.con.unacknowledgedLimit)
    (hroom : (e.con.ackSize : ℤ) ≤ e.con.maxAckInAir - e.con.inAir)
    (hlow : e.con.inAir < P.limit) {outgoing : Outgoing} (hfits : outgoing.Fits e.con) :
    e.Writes outgoing ∨
      (e.con.authenticationReceived = false ∧
        (e.con.connectUp = true ∨ e.con.authenticationSent = true)) ∨
      (e.con.authenticationSent = true ∧ outgoing.next = none) := by
  have hfinish : ∀ size : ℕ, (size : ℤ) ≤ e.con.maxInAir - e.con.inAir →
      e.con.finishFrame size = some
        { e.con with
          frameOutUsed := size
          frameOutNr := nextFrameNr e.con.frameOutNr } := by
    intro size hsize
    unfold Connection.finishFrame
    rw [if_neg (not_lt.mpr hsize)]
  by_cases hwaits : e.con.connectUp = true ∧ e.con.authenticationReceived = false
  · exact .inr (.inl ⟨hwaits.2, .inl hwaits.1⟩)
  have hgo : ¬(e.con.connectUp && !e.con.authenticationReceived) = true := by
    rw [Bool.and_eq_true, Bool.not_eq_true']
    exact hwaits
  cases hsent : e.con.authenticationSent with
  | false =>
      left
      have hsize := h.settings.room_for_frame hpeer.settings
        (.inr ⟨outgoing.authenticationSz_le, hfits.authentication⟩) hlow
      have hmade : e.con.makeFrame outgoing =
          ({ e.con with
              frameOutUsed := outgoing.authenticationSz
              frameOutNr := nextFrameNr e.con.frameOutNr
              authenticationSent := true },
            [.authentication e.con.frameSz outgoing.authenticationSz]) := by
        unfold Connection.makeFrame
        rw [if_neg hgo, hsent, Bool.not_false, if_pos rfl, hfinish _ hsize]
      exact h.writes_frame hfree hquiet hroom hmade rfl rfl outgoing.authenticationSz_pos
  | true =>
      cases hreceived : e.con.authenticationReceived with
      | false => exact .inr (.inl ⟨rfl, .inr rfl⟩)
      | true =>
          cases hnext : outgoing.next with
          | none => exact .inr (.inr ⟨rfl, rfl⟩)
          | some size =>
              left
              have hsize := h.settings.room_for_frame hpeer.settings
                (.inl (hfits.next size hnext)) hlow
              have hmade : e.con.makeFrame outgoing =
                  ({ e.con with
                      frameOutUsed := size
                      frameOutNr := nextFrameNr e.con.frameOutNr },
                    [.frame size]) := by
                unfold Connection.makeFrame
                rw [if_neg hgo, hsent, hreceived, hnext, Bool.not_true,
                  if_neg Bool.false_ne_true, if_neg Bool.false_ne_true]
                dsimp only
                rw [hfinish _ hsize]
              exact h.writes_frame hfree hquiet hroom hmade rfl rfl
                (outgoing.next_pos size hnext)

/-- When all lines are empty, an end which has something to send can write, or the
other end can. -/
theorem FlowEnd.Bounded.one_writes (h : e.Bounded P peer) (hpeer : peer.Bounded P e)
    (hidle : e.Idle peer) (hpeerIdle : peer.Idle e)
    (hup : e.con.connectUp = false ∨ peer.con.connectUp = false)
    {outgoing peerOutgoing : Outgoing} (hfits : outgoing.Fits e.con)
    (hpeerFits : peerOutgoing.Fits peer.con) (hsend : e.HasToSend outgoing) :
    e.Writes outgoing ∨ peer.Writes peerOutgoing := by
  have hnotBoth := h.not_both_blocked hpeer hidle hpeerIdle
  by_cases howes : e.con.unacknowledgedLimit ≤ e.con.unacknowledged
  · by_cases hroom : (e.con.ackSize : ℤ) ≤ e.con.maxAckInAir - e.con.inAir
    · exact .inl (h.writes_acknowledge hidle.free howes hroom outgoing)
    · have hpeerOwes := h.owes_of_blocked hpeer hidle hpeerIdle (not_le.mp hroom)
      exact .inr (hpeer.writes_acknowledge hpeerIdle.free hpeerOwes
        (hnotBoth.resolve_left hroom) peerOutgoing)
  by_cases hpeerOwes : peer.con.unacknowledgedLimit ≤ peer.con.unacknowledged
  · by_cases hpeerRoom : (peer.con.ackSize : ℤ) ≤ peer.con.maxAckInAir - peer.con.inAir
    · exact .inr (hpeer.writes_acknowledge hpeerIdle.free hpeerOwes hpeerRoom peerOutgoing)
    · exact absurd (hpeer.owes_of_blocked h hpeerIdle hidle (not_le.mp hpeerRoom)) howes
  -- Neither end owes an acknowledgement, so both have room for a frame.
  have hroom : (e.con.ackSize : ℤ) ≤ e.con.maxAckInAir - e.con.inAir := by
    by_contra hblocked
    exact hpeerOwes (h.owes_of_blocked hpeer hidle hpeerIdle (not_le.mp hblocked))
  have hpeerRoom : (peer.con.ackSize : ℤ) ≤ peer.con.maxAckInAir - peer.con.inAir := by
    by_contra hblocked
    exact howes (hpeer.owes_of_blocked h hpeerIdle hidle (not_le.mp hblocked))
  have hquiet := not_le.mp howes
  have hpeerQuiet := not_le.mp hpeerOwes
  have hlow : e.con.inAir < P.limit := by
    have hsame := h.unacknowledged_eq_inAir hpeer hidle hpeerIdle
      (hpeer.quiet h hpeerQuiet).1
    rw [hsame, hpeer.settings.limit] at hpeerQuiet
    exact_mod_cast hpeerQuiet
  have hpeerLow : peer.con.inAir < P.limit := by
    have hsame := hpeer.unacknowledged_eq_inAir h hpeerIdle hidle (h.quiet hpeer hquiet).1
    rw [hsame, h.settings.limit] at hquiet
    exact_mod_cast hquiet
  rcases h.writes_or_waits hpeer hidle.free (not_le.mp howes) hroom hlow hfits with
    hwrites | ⟨hunreceived, hwaits⟩ | ⟨hsent, hnone⟩
  · exact .inl hwrites
  · -- It waits for the authentication of the other end, which has not sent it yet.
    have hpeerUnsent : peer.con.authenticationSent = false := by
      rw [← Bool.not_eq_true]
      intro hpeerSent
      rw [hpeer.authenticationReceived hidle hpeerSent] at hunreceived
      cases hunreceived
    rcases hpeer.writes_or_waits h hpeerIdle.free (not_le.mp hpeerOwes) hpeerRoom hpeerLow
        hpeerFits with hwrites | ⟨hpeerUnreceived, hpeerWaits⟩ | ⟨hpeerSent, -⟩
    · exact .inr hwrites
    · exfalso
      have hpeerUp : peer.con.connectUp = true := by
        refine hpeerWaits.resolve_right fun hpeerSent => ?_
        rw [hpeerSent] at hpeerUnsent
        cases hpeerUnsent
      have hdown : e.con.connectUp = false := by
        refine hup.resolve_right fun hpeerDown => ?_
        rw [hpeerDown] at hpeerUp
        cases hpeerUp
      have hsent : e.con.authenticationSent = true := by
        refine hwaits.resolve_left fun hisUp => ?_
        rw [hisUp] at hdown
        cases hdown
      rw [h.authenticationReceived hpeerIdle hsent] at hpeerUnreceived
      cases hpeerUnreceived
    · rw [hpeerSent] at hpeerUnsent
      cases hpeerUnsent
  · exfalso
    rcases hsend with hunsent | hnext
    · rw [hsent] at hunsent
      cases hunsent
    · exact hnext hnone

theorem flow_connectUp {timed : Bool} {s : FlowState}
    (h : TransitionSystem.Reachable FlowStart (FlowStep timed) s) :
    s.left.con.connectUp = false ∨ s.right.con.connectUp = false := by
  refine FlowStep.invariant
    (fun s => s.left.con.connectUp = false ∨ s.right.con.connectUp = false) ?_ ?_ h
  · rintro _ ⟨isSocket, up, up', sz, sz', -, -, hup⟩
    exact hup
  · rintro s t hup hstep
    cases hstep with
    | left hmicro =>
        dsimp only at hup ⊢
        rw [hmicro.same_config.2]
        exact hup
    | right hmicro =>
        dsimp only at hup ⊢
        rw [hmicro.same_config.2]
        exact hup

/-! ## Runs with chosen actions -/

/-- A run without keep-alives; the first component tells whether the left end acts. -/
def FlowState.perform (s : FlowState) : List (Bool × FlowAction) → Option FlowState
  | [] => some s
  | (atLeft, action) :: actions =>
      match if atLeft then s.stepLeft action else s.stepRight action with
      | none => none
      | some t => t.perform actions

theorem FlowState.perform_reachable {s t : FlowState} {actions : List (Bool × FlowAction)}
    (hs : TransitionSystem.Reachable FlowStart (FlowStep false) s)
    (huntimed : ∀ action ∈ actions, action.2.Untimed) (h : s.perform actions = some t) :
    TransitionSystem.Reachable FlowStart (FlowStep false) t := by
  induction actions generalizing s with
  | nil =>
      obtain rfl : s = t := Option.some.inj h
      exact hs
  | cons first actions ih =>
      obtain ⟨atLeft, action⟩ := first
      have hfirst := huntimed _ List.mem_cons_self
      have hrest : ∀ action ∈ actions, action.2.Untimed := fun action hmem =>
        huntimed action (List.mem_cons_of_mem _ hmem)
      rw [perform] at h
      cases atLeft with
      | true =>
          cases hstep : s.stepLeft action with
          | none => simp only [hstep, if_true] at h; cases h
          | some s' =>
              simp only [hstep, if_true] at h
              exact ih (hs.next ⟨action, .inr hfirst, .inl hstep⟩) hrest h
      | false =>
          cases hstep : s.stepRight action with
          | none => simp only [hstep, Bool.false_eq_true, if_false] at h; cases h
          | some s' =>
              simp only [hstep, Bool.false_eq_true, if_false] at h
              exact ih (hs.next ⟨action, .inr hfirst, .inr hstep⟩) hrest h

instance : DecidablePred FlowAction.Untimed := fun action =>
  match action with
  | .receive _ => isTrue trivial
  | .send _ _ _ => isTrue trivial
  | .keepalive _ => isFalse id

def frameOf (size : ℕ) (hsize : 0 < size) : Outgoing :=
  { greeting with
    next := some size
    next_pos := fun _ hn => Option.some.inj hn ▸ hsize }

def sendAll (outgoing : Outgoing) : FlowAction := .send outgoing 2000 2000

/-! ## Progress -/

/-- Flow control cannot lock up: without keep-alives, an end which owes an
acknowledgement may send it, on a socket if one of the two frame sizes is at most
1488; and whatever the frame sizes are, when everything has been received and an end
has something to send, one of the two ends writes. -/
theorem flow_control_progress {s : FlowState}
    (h : TransitionSystem.Reachable FlowStart (FlowStep false) s) :
    (s.left.con.isSocket = false ∨
        min s.left.con.frameSz s.right.con.frameSz ≤ 1488 →
      s.left.AcknowledgementAllowed ∧ s.right.AcknowledgementAllowed) ∧
      ∀ left right : Outgoing, left.Fits s.left.con → right.Fits s.right.con →
        s.Drained → s.left.HasToSend left ∨ s.right.HasToSend right →
          s.left.Writes left ∨ s.right.Writes right := by
  obtain ⟨P, hleft, hright⟩ := flow_bounded h
  have hup := flow_connectUp h
  refine ⟨fun hsmall => ⟨hleft.acknowledgementAllowed hright hsmall, ?_⟩,
    fun left right hfitsLeft hfitsRight hdrained hsend => ?_⟩
  · rw [← hleft.counts.sameKind, min_comm] at hsmall
    exact hright.acknowledgementAllowed hleft hsmall
  · have hidleLeft : s.left.Idle s.right := ⟨hdrained.left, hdrained.leftBuffer⟩
    have hidleRight : s.right.Idle s.left := ⟨hdrained.right, hdrained.rightBuffer⟩
    rcases hsend with hsend | hsend
    · exact hleft.one_writes hright hidleLeft hidleRight hup hfitsLeft hfitsRight hsend
    · exact (hright.one_writes hleft hidleRight hidleLeft hup.symm hfitsRight hfitsLeft
        hsend).symm

/-- Both ends greet; then the left end fills its window, and the other end receives it
all. -/
def fullWindowRun : List (Bool × FlowAction) :=
  [(false, sendAll greeting), (true, .receive 3), (true, .receive 30),
    (true, sendAll greeting), (false, .receive 3), (false, .receive 30),
    (true, sendAll (frameOf 80 (by decide))), (true, sendAll (frameOf 80 (by decide))),
    (false, .receive 80), (false, .receive 80)]

theorem fullWindowRun_untimed : ∀ action ∈ fullWindowRun, action.2.Untimed := by
  decide

theorem flow_control_progress_serial :
    ∃ s : FlowState, s.left.con.inAir = 193 ∧ ¬s.left.Writes (frameOf 80 (by decide)) ∧
      (s.left.AcknowledgementAllowed ∧ s.right.AcknowledgementAllowed) ∧
      (s.left.Writes (frameOf 80 (by decide)) ∨ s.right.Writes greeting) := by
  obtain ⟨s, hs, hair, hleft, hright, hdrained, hstops⟩ : ∃ s : FlowState,
      serialEnds.perform fullWindowRun = some s ∧ s.left.con.inAir = 193 ∧
        (s.left.con.isSocket, s.left.con.frameSz, s.left.con.dstFrameSz) = (false, 96, 96) ∧
        (s.right.con.isSocket, s.right.con.frameSz, s.right.con.dstFrameSz) = (false, 96, 96) ∧
        s.Drained ∧ ¬s.left.Writes (frameOf 80 (by decide)) :=
    ⟨_, rfl, rfl, rfl, rfl, ⟨rfl, rfl, rfl, rfl⟩, not_not.mpr rfl⟩
  simp only [Prod.mk.injEq] at hleft hright
  have hfitsLeft : (frameOf 80 (by decide)).Fits s.left.con :=
    ⟨by rw [hleft.2.1]; decide, by
      rw [hleft.2.2]
      rintro size ⟨rfl⟩
      decide⟩
  have hfitsRight : greeting.Fits s.right.con :=
    ⟨by rw [hright.2.1]; decide, fun size hsize => by cases hsize⟩
  obtain ⟨hallowed, hwrites⟩ := flow_control_progress
    (FlowState.perform_reachable (.start serialEnds_start) fullWindowRun_untimed hs)
  exact ⟨s, hair, hstops, hallowed (.inl hleft.1),
    hwrites _ greeting hfitsLeft hfitsRight hdrained (.inl (.inr (Option.some_ne_none _)))⟩

/-! ## Blocked acknowledgements -/

def socketEnds : FlowState := ⟨initialEnd true false 1489, initialEnd true true 1489⟩

theorem socketEnds_start : FlowStart socketEnds :=
  .mk true false true 1489 1489 (by decide) (by decide) (.inl rfl)

/-- Both ends fill their windows; then only the left end receives, and it acknowledges
as often as it owes an acknowledgement. -/
def blockedRun : List (Bool × FlowAction) :=
  [(true, sendAll greeting), (false, .receive 4), (false, .receive 30),
    (false, sendAll greeting), (true, .receive 4), (true, .receive 30)] ++
  List.replicate 44 (true, sendAll (frameOf 1489 (by decide))) ++
  (false, sendAll (frameOf 466 (by decide))) ::
    List.replicate 130 (false, sendAll (frameOf 500 (by decide))) ++
  [(true, .receive 466), (true, sendAll greeting)] ++
  (List.replicate 129 [(true, .receive 500), (true, sendAll greeting)]).flatten ++
  [(true, .receive 500)]

theorem blockedRun_untimed : ∀ action ∈ blockedRun, action.2.Untimed := by
  decide +kernel

/-- With frames of 1489 bytes an end can owe an acknowledgement and be without room for
it. -/
theorem flow_acknowledgement_not_allowed :
    ¬∀ s, TransitionSystem.Reachable FlowStart (FlowStep false) s →
      s.left.AcknowledgementAllowed ∧ s.right.AcknowledgementAllowed := by
  intro hall
  have hend : (socketEnds.perform blockedRun).map (fun s =>
      (decide (s.left.con.frameOutUsed = 0),
        decide (s.left.con.unacknowledgedLimit ≤ s.left.con.unacknowledged),
        decide ((s.left.con.ackSize : ℤ) ≤ s.left.con.maxAckInAir - s.left.con.inAir))) =
      some (true, true, false) := by decide +kernel
  obtain ⟨s, hs, hvalues⟩ := Option.map_eq_some_iff.mp hend
  obtain ⟨hfree, howed, hroom⟩ : decide (s.left.con.frameOutUsed = 0) = true ∧
      decide (s.left.con.unacknowledgedLimit ≤ s.left.con.unacknowledged) = true ∧
      decide ((s.left.con.ackSize : ℤ) ≤ s.left.con.maxAckInAir - s.left.con.inAir) =
        false := by
    rw [Prod.mk.injEq, Prod.mk.injEq] at hvalues
    exact hvalues
  have hreachable := FlowState.perform_reachable (.start socketEnds_start) blockedRun_untimed hs
  exact of_decide_eq_false hroom
    ((hall s hreachable).1 (of_decide_eq_true hfree) (of_decide_eq_true howed))

end Iocom
