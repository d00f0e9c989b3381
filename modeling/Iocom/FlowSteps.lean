import Iocom.FlowControl

/-!
# The steps of flow control

A call of `ioc_connection_send` puts at most an acknowledgement and a frame into
the frame buffer, and writes.  Everything which holds along a run is proved of
these single steps.
-/

namespace Iocom

open AcknowledgedWindow (total covered lastAck)

inductive FlowEnd.Micro (timed : Bool) (e peer : FlowEnd) : FlowEnd → Prop
  | write (accepted : ℕ) :
      Micro timed e peer { e with con := e.con.writeToStream accepted }
  | acknowledge (hfree : e.con.frameOutUsed = 0)
      (hdue : timed = true ∨ e.con.unacknowledgedLimit ≤ e.con.unacknowledged ∧
        (e.con.ackSize : ℤ) ≤ e.con.maxAckInAir - e.con.inAir) :
      Micro timed e peer
        (e.place (e.con.putAcknowledge.1, [e.con.putAcknowledge.2]))
  | authentication (con : Connection) (size : ℕ)
      (hfree : e.con.frameOutUsed = 0)
      (hquiet : e.con.unacknowledged < e.con.unacknowledgedLimit)
      (hpos : 0 < size) (hsize : size ≤ maxAuthenticationSz)
      (hsent : e.con.authenticationSent = false)
      (hfinish : e.con.finishFrame size = some con) :
      Micro timed e peer
        (e.place ({ con with authenticationSent := true },
          [.authentication e.con.frameSz size]))
  | frame (con : Connection) (size : ℕ)
      (hfree : e.con.frameOutUsed = 0)
      (hquiet : e.con.unacknowledged < e.con.unacknowledgedLimit)
      (hpos : 0 < size)
      (hsent : e.con.authenticationSent = true)
      (hreceived : e.con.authenticationReceived = true)
      (hfinish : e.con.finishFrame size = some con) :
      Micro timed e peer (e.place (con, [.frame size]))
  | receive (n : ℕ) (e' : FlowEnd) (hreceive : e.receive peer n = some e') :
      Micro timed e peer e'

theorem FlowEnd.place_nil (e : FlowEnd) (con : Connection) :
    e.place (con, []) = { e with con := con } := by
  unfold FlowEnd.place
  simp

theorem FlowEnd.place_place (e : FlowEnd) (r r' : Connection × List FlowMessage) :
    (e.place r).place r' = e.place (r'.1, r.2 ++ r'.2) := by
  unfold FlowEnd.place
  simp

theorem Connection.writeToStream_same (con : Connection) (accepted : ℕ) :
    con.writeToStream accepted =
      { con with
        bytesSent := (con.writeToStream accepted).bytesSent
        frameOutUsed := (con.writeToStream accepted).frameOutUsed
        frameOutPos := (con.writeToStream accepted).frameOutPos } := by
  unfold Connection.writeToStream
  dsimp only
  split
  · rfl
  split <;> rfl

theorem Connection.unacknowledged_writeToStream (con : Connection) (accepted : ℕ) :
    (con.writeToStream accepted).unacknowledged = con.unacknowledged := by
  rw [con.writeToStream_same]
  rfl

theorem Connection.unacknowledged_putAcknowledge (con : Connection) :
    con.putAcknowledge.1.unacknowledged = 0 := by
  unfold Connection.unacknowledged Connection.putAcknowledge
  simp

theorem FlowEnd.makeFrame_micros
    {timed : Bool} {e : FlowEnd} (peer : FlowEnd) (outgoing : Outgoing)
    (accepted : ℕ) (hfree : e.con.frameOutUsed = 0)
    (hquiet : e.con.unacknowledged < e.con.unacknowledgedLimit) :
    Relation.ReflTransGen (fun x y => FlowEnd.Micro timed x peer y) e
      (e.place ((e.con.makeFrame outgoing).1.writeToStream accepted,
        (e.con.makeFrame outgoing).2)) := by
  have hwrite : ∀ r : Connection × List FlowMessage,
      FlowEnd.Micro timed (e.place r) peer
        (e.place (r.1.writeToStream accepted, r.2)) :=
    fun r => .write accepted
  have hnone : Relation.ReflTransGen (fun x y => FlowEnd.Micro timed x peer y) e
      (e.place (e.con.writeToStream accepted, [])) := by
    rw [FlowEnd.place_nil]
    exact .single (.write accepted)
  unfold Connection.makeFrame
  split
  · exact hnone
  split
  · rename_i hunsent
    rw [Bool.not_eq_true'] at hunsent
    cases hfinish : e.con.finishFrame outgoing.authenticationSz with
    | none => exact hnone
    | some con =>
        exact .tail (.single (.authentication con _ hfree hquiet
          outgoing.authenticationSz_pos outgoing.authenticationSz_le hunsent
          hfinish)) (hwrite _)
  split
  · exact hnone
  rename_i hsent hreceived
  rw [Bool.not_eq_true', Bool.not_eq_false] at hsent hreceived
  cases hnext : outgoing.next with
  | none => exact hnone
  | some size =>
      dsimp only
      cases hfinish : e.con.finishFrame size with
      | none => exact hnone
      | some con =>
          exact .tail (.single (.frame con size hfree hquiet
            (outgoing.next_pos size hnext) hsent hreceived hfinish)) (hwrite _)

theorem FlowEnd.act_micros
    {timed : Bool} {e peer e' : FlowEnd} {action : FlowAction}
    (hlimit : 0 < e.con.unacknowledgedLimit)
    (htimed : timed = true ∨ action.Untimed)
    (hact : e.act peer action = some e') :
    Relation.ReflTransGen (fun x y => FlowEnd.Micro timed x peer y) e e' := by
  cases action with
  | receive n => exact .single (.receive n e' hact)
  | keepalive accepted =>
      obtain rfl := Option.some.inj hact
      unfold Connection.sendAcknowledge
      split
      · rw [FlowEnd.place_nil]
      · rename_i hfree
        have htrue : timed = true := htimed.resolve_right id
        exact .tail (.single (.acknowledge (not_not.mp hfree) (.inl htrue)))
          (.write accepted)
  | send outgoing ofAcknowledge ofFrame =>
      obtain rfl := Option.some.inj hact
      unfold Connection.send
      split
      · rw [FlowEnd.place_nil]
        exact .single (.write ofFrame)
      rename_i hfree
      replace hfree : e.con.frameOutUsed = 0 := not_not.mp hfree
      unfold Connection.acknowledgeAsNeeded
      by_cases hroom : e.con.maxAckInAir - e.con.inAir < e.con.ackSize
      · rw [if_pos hroom, FlowEnd.place_nil]
        exact .single (.write ofFrame)
      rw [if_neg hroom]
      by_cases hquiet : (e.con.unacknowledged : ℤ) < e.con.unacknowledgedLimit
      · rw [if_pos hquiet]
        dsimp only
        rw [if_neg (not_not.mpr hfree)]
        exact FlowEnd.makeFrame_micros peer outgoing ofFrame hfree hquiet
      · -- An acknowledgement comes first, and a frame if it has been written.
        rw [if_neg hquiet]
        unfold Connection.sendAcknowledge
        rw [if_neg (not_not.mpr hfree)]
        dsimp only
        have hack : Relation.ReflTransGen
            (fun x y => FlowEnd.Micro timed x peer y) e
            (e.place (e.con.putAcknowledge.1.writeToStream ofAcknowledge,
              [e.con.putAcknowledge.2])) :=
          .tail (.single (.acknowledge hfree
            (.inr ⟨not_lt.mp hquiet, not_lt.mp hroom⟩))) (.write ofAcknowledge)
        split
        · exact hack
        · rename_i hwritten
          refine hack.trans ?_
          have hnone : (e.con.putAcknowledge.1.writeToStream
              ofAcknowledge).unacknowledged = 0 := by
            rw [Connection.unacknowledged_writeToStream,
              Connection.unacknowledged_putAcknowledge]
          have hsame : (e.con.putAcknowledge.1.writeToStream
              ofAcknowledge).unacknowledgedLimit = e.con.unacknowledgedLimit := by
            rw [Connection.writeToStream_same]
            rfl
          have hstill : ((e.con.putAcknowledge.1.writeToStream
              ofAcknowledge).unacknowledged : ℤ) <
                (e.con.putAcknowledge.1.writeToStream
                  ofAcknowledge).unacknowledgedLimit := by
            rw [hnone, hsame]
            exact hlimit
          have hframe := @FlowEnd.makeFrame_micros timed (e.place
            (e.con.putAcknowledge.1.writeToStream ofAcknowledge,
              [e.con.putAcknowledge.2])) peer outgoing ofFrame
            (not_not.mp hwritten) hstill
          rw [FlowEnd.place_place] at hframe
          exact hframe

inductive FlowMicroStep (timed : Bool) : FlowState → FlowState → Prop
  | left {e peer e' : FlowEnd} (h : FlowEnd.Micro timed e peer e') :
      FlowMicroStep timed ⟨e, peer⟩ ⟨e', peer⟩
  | right {e peer e' : FlowEnd} (h : FlowEnd.Micro timed e peer e') :
      FlowMicroStep timed ⟨peer, e⟩ ⟨peer, e'⟩

/-! ## What the parts of a step do -/

theorem Connection.finishFrame_eq_some
    {con con' : Connection} {size : ℕ} (h : con.finishFrame size = some con') :
    (size : ℤ) ≤ con.maxInAir - con.inAir ∧ con' =
      { con with
        frameOutUsed := size
        frameOutNr := nextFrameNr con.frameOutNr } := by
  unfold Connection.finishFrame at h
  split at h
  · cases h
  · rename_i hroom
    exact ⟨not_lt.mp hroom, (Option.some.inj h).symm⟩

def Connection.BufferOk (con : Connection) : Prop :=
  con.frameOutPos < con.frameOutUsed ∨
    con.frameOutUsed = 0 ∧ con.frameOutPos = 0

theorem Connection.writeToStream_spec
    {con : Connection} (accepted : ℕ) (hbuffer : con.BufferOk)
    (hsent : con.bytesSent < 0x100000000) :
    (con.writeToStream accepted).BufferOk ∧
      ∃ written,
        (con.writeToStream accepted).bytesSent =
          (con.bytesSent + written) % 0x100000000 ∧
        (con.writeToStream accepted).frameOutUsed -
            (con.writeToStream accepted).frameOutPos + written =
          con.frameOutUsed - con.frameOutPos := by
  unfold Connection.BufferOk at hbuffer ⊢
  unfold Connection.writeToStream
  dsimp only
  split
  · exact ⟨hbuffer, 0, by omega, by omega⟩
  generalize hwritten : min accepted (con.frameOutUsed - con.frameOutPos) = written
  split
  · exact ⟨.inr ⟨rfl, rfl⟩, written, rfl, by dsimp only; omega⟩
  · exact ⟨.inl (by dsimp only; omega), written, rfl, by dsimp only; omega⟩

/-- Handling a message leaves the counters of sent and received bytes and the
frame buffer as they are. -/
theorem Connection.handle_same (con : Connection) (message : FlowMessage) :
    con.handle message =
      { con with
        processedBytes := (con.handle message).processedBytes
        dstFrameSz := (con.handle message).dstFrameSz
        maxInAir := (con.handle message).maxInAir
        maxAckInAir := (con.handle message).maxAckInAir
        authenticationReceived := (con.handle message).authenticationReceived } := by
  unfold Connection.handle
  split
  · rfl
  · dsimp only
    split <;> rfl
  · rfl

theorem messageAt_eq_some
    {isSocket : Bool} {placed : List Placed} {received left : ℕ}
    {message : FlowMessage}
    (h : messageAt isSocket placed received = some (message, left)) :
    ∃ before p after, placed = before ++ p :: after ∧ p.message = message ∧
      total (before.map (Placed.item isSocket)) ≤ received ∧
      received + left = total (before.map (Placed.item isSocket)) +
        p.message.size isSocket ∧ 0 < left := by
  induction placed generalizing received with
  | nil => cases h
  | cons first placed ih =>
      unfold messageAt at h
      split at h
      · obtain ⟨rfl, rfl⟩ := Prod.mk.inj (Option.some.inj h)
        exact ⟨[], first, placed, rfl, rfl, Nat.zero_le _,
          by simp only [List.map_nil, total]; omega, by omega⟩
      · obtain ⟨before, p, after, rfl, hmessage, hle, hleft, hpos⟩ := ih h
        refine ⟨first :: before, p, after, rfl, hmessage, ?_, ?_, hpos⟩
        · simp only [List.map_cons, total, Placed.item]
          omega
        · simp only [List.map_cons, total, Placed.item]
          omega

theorem FlowEnd.receive_cases
    {e peer e' : FlowEnd} {n : ℕ} (h : e.receive peer n = some e') :
    e' = e ∨
      ∃ before p after left, peer.placed = before ++ p :: after ∧
        total (before.map (Placed.item peer.con.isSocket)) ≤ e.received ∧
        e.received + left = total (before.map (Placed.item peer.con.isSocket)) +
          p.message.size peer.con.isSocket ∧
        0 < left ∧ n ≤ left ∧ e.received + n ≤ peer.sentBytes ∧
        e' =
          { e with
            con :=
              let con :=
                { e.con with
                  bytesReceived := (e.con.bytesReceived + n) % 0x100000000 }
              if n = left then con.handle p.message else con
            received := e.received + n } := by
  unfold FlowEnd.receive at h
  split at h
  · cases h
  rename_i hwritten
  split at h
  · exact .inl (Option.some.inj h).symm
  rename_i message left hat
  split at h
  · cases h
  rename_i hleft
  obtain ⟨before, p, after, hplaced, rfl, hle, hsize, hpos⟩ := messageAt_eq_some hat
  exact .inr ⟨before, p, after, left, hplaced, hle, hsize, hpos, not_lt.mp hleft,
    not_lt.mp hwritten, (Option.some.inj h).symm⟩

theorem FlowEnd.Micro.same_config
    {timed : Bool} {e peer e' : FlowEnd} (h : FlowEnd.Micro timed e peer e') :
    e'.con.unacknowledgedLimit = e.con.unacknowledgedLimit ∧
      e'.con.connectUp = e.con.connectUp := by
  cases h with
  | write accepted =>
      dsimp only
      rw [Connection.writeToStream_same]
      exact ⟨rfl, rfl⟩
  | acknowledge hfree hdue => exact ⟨rfl, rfl⟩
  | authentication con size hfree hquiet hpos hsize hsent hfinish =>
      obtain ⟨-, rfl⟩ := Connection.finishFrame_eq_some hfinish
      exact ⟨rfl, rfl⟩
  | frame con size hfree hquiet hpos hsent hreceived hfinish =>
      obtain ⟨-, rfl⟩ := Connection.finishFrame_eq_some hfinish
      exact ⟨rfl, rfl⟩
  | receive n e' hreceive =>
      rcases FlowEnd.receive_cases hreceive with
        rfl | ⟨before, p, after, left, -, -, -, -, -, -, rfl⟩
      · exact ⟨rfl, rfl⟩
      · dsimp only
        split
        · rw [Connection.handle_same]
          exact ⟨rfl, rfl⟩
        · exact ⟨rfl, rfl⟩

/-! ## Runs -/

/-- Both ends acknowledge at all. -/
def FlowState.LimitsPos (s : FlowState) : Prop :=
  0 < s.left.con.unacknowledgedLimit ∧ 0 < s.right.con.unacknowledgedLimit

theorem FlowMicroStep.limitsPos
    {timed : Bool} {s t : FlowState} (h : FlowMicroStep timed s t)
    (hs : s.LimitsPos) : t.LimitsPos := by
  cases h with
  | left h => exact ⟨by rw [h.same_config.1]; exact hs.1, hs.2⟩
  | right h => exact ⟨hs.1, by rw [h.same_config.1]; exact hs.2⟩

theorem FlowStep.micros
    {timed : Bool} {s t : FlowState} (h : FlowStep timed s t) (hs : s.LimitsPos) :
    Relation.ReflTransGen (FlowMicroStep timed) s t := by
  obtain ⟨action, htimed, hstep⟩ := h
  rcases hstep with hstep | hstep
  · obtain ⟨e, hact, rfl⟩ := Option.map_eq_some_iff.mp hstep
    have hmicros := FlowEnd.act_micros hs.1 htimed hact
    exact hmicros.lift (fun e => FlowState.mk e s.right) fun x y hxy => .left hxy
  · obtain ⟨e, hact, rfl⟩ := Option.map_eq_some_iff.mp hstep
    have hmicros := FlowEnd.act_micros hs.2 htimed hact
    exact hmicros.lift (fun e => FlowState.mk s.left e) fun x y hxy => .right hxy

/-- An invariant of the single steps holds in every state of a run. -/
theorem FlowStep.invariant
    {timed : Bool} {s : FlowState} (inv : FlowState → Prop)
    (hstart : ∀ s, FlowStart s → inv s)
    (hstep : ∀ s t, inv s → FlowMicroStep timed s t → inv t)
    (h : TransitionSystem.Reachable FlowStart (FlowStep timed) s) : inv s := by
  have hboth := h.invariant (fun s => inv s ∧ s.LimitsPos) ?_ ?_
  · exact hboth.1
  · rintro _ ⟨isSocket, upLeft, upRight, szLeft, szRight, hleft, hright, hup⟩
    refine ⟨hstart _ (.mk isSocket upLeft upRight szLeft szRight hleft hright hup), ?_⟩
    have hpos : 0 < (if isSocket then socketUnacknowledgedLimit
        else serialUnacknowledgedLimit) := by
      cases isSocket <;> decide
    exact ⟨hpos, hpos⟩
  · rintro s t ⟨hinv, hlimits⟩ hst
    refine TransitionSystem.invariant_of_run (fun s => inv s ∧ s.LimitsPos) ?_
      ⟨hinv, hlimits⟩ (hst.micros hlimits)
    exact fun s t h hmicro => ⟨hstep s t h.1 hmicro, hmicro.limitsPos h.2⟩

end Iocom
