import Iocom.FlowCounters

/-!
# The window of flow control

Without keep-alives the bytes in the air never exceed `max_ack_in_air`.  The
invariant follows both ends: until the authentication messages have arrived
hardly anything is sent, so that the limits can still be lowered; afterwards the
two ends exchange data and acknowledgements by the rules of
`AcknowledgedWindow`.
-/

namespace Iocom

open AcknowledgedWindow (Item Limits Side total covered lastAck)

/-- `IOC_SERIAL_MAX_IN_AIR` or `IOC_SOCKET_MAX_IN_AIR`. -/
def maxInAirOf (isSocket : Bool) (frameSz : ℤ) : ℤ :=
  if isSocket then socketMaxInAir frameSz else serialMaxInAir

/-- `IOC_SERIAL_MAX_ACK_IN_AIR` or `IOC_SOCKET_MAX_ACK_IN_AIR`. -/
def maxAckInAirOf (isSocket : Bool) (frameSz : ℤ) : ℤ :=
  if isSocket then socketMaxAckInAir frameSz else serialMaxAckInAir

structure FlowEnd.Settings (P : Limits) (e peer : FlowEnd) : Prop where
  limit : e.con.unacknowledgedLimit = P.limit
  limit_eq : P.limit = if e.con.isSocket then 500 else 40
  ackSize : P.ackSize = ackSizeOf e.con.isSocket
  window : (P.window : ℤ) =
    maxInAirOf e.con.isSocket (min e.con.frameSz peer.con.frameSz)
  frameSz : minFrameSz ≤ e.con.frameSz ∧ e.con.frameSz ≤ maxFrameSz
  serial : e.con.isSocket = false → e.con.frameSz = serialFrameSz
  dstFrameSz : e.con.dstFrameSz =
    if e.con.authenticationReceived then min e.con.frameSz peer.con.frameSz
    else e.con.frameSz
  maxInAir : e.con.maxInAir = maxInAirOf e.con.isSocket e.con.dstFrameSz
  maxAckInAir : e.con.maxAckInAir = maxAckInAirOf e.con.isSocket e.con.dstFrameSz
  told : ∀ p ∈ e.placed, ∀ frameSz size,
    p.message = .authentication frameSz size → frameSz = e.con.frameSz

structure FlowEnd.Handshake (e peer : FlowEnd) : Prop where
  unsent : e.con.authenticationSent = false →
    (∀ p ∈ e.placed, p.message.isAck = true) ∧
      peer.con.authenticationReceived = false
  unsentBytes : e.con.isSocket = true → e.con.authenticationSent = false →
    500 * e.placedBytes ≤ 500 * 4 + 4 * lastAck e.history
  unreceivedBytes : e.con.isSocket = true → e.con.authenticationReceived = false →
    500 * e.placedBytes ≤ 500 * (4 + 1024) + 4 * lastAck e.history
  sent : e.con.authenticationSent = true →
    ∃ before p after frameSz size, e.placed = before ++ p :: after ∧
      p.message = .authentication frameSz size ∧
      (e.con.isSocket = true →
        total (before.map (Placed.item e.con.isSocket)) + size ≤ 2048) ∧
      (peer.con.authenticationReceived = false →
        peer.received < total (before.map (Placed.item e.con.isSocket)) + size)

def FlowEnd.side (e : FlowEnd) : Side := ⟨e.history, e.received⟩

structure FlowEnd.Bounded (P : Limits) (e peer : FlowEnd) : Prop where
  counts : e.Counts peer
  settings : e.Settings P peer
  valid : e.side.Valid P peer.side
  acknowledged : e.con.bytesAcknowledged =
    if e.placed = [] then 0xA0A000 else lastAck e.history % 0x100000000
  within : (e.placedBytes : ℤ) ≤ e.coveredBytes peer + e.con.maxAckInAir
  handshake : e.Handshake peer

variable {P : Limits} {e peer e' : FlowEnd}

/-! ## Bounds -/

theorem FlowEnd.Settings.dst_bounds (h : e.Settings P peer)
    (hpeer : peer.Settings P e) :
    minFrameSz ≤ e.con.dstFrameSz ∧ e.con.dstFrameSz ≤ maxFrameSz := by
  have hown := h.frameSz
  have hother := hpeer.frameSz
  rw [h.dstFrameSz]
  split
  · exact ⟨le_min hown.1 hother.1, (min_le_left _ _).trans hown.2⟩
  · exact hown

/-- The limit for acknowledgements is in the range which they can tell. -/
theorem FlowEnd.Settings.maxAckInAir_lt (h : e.Settings P peer)
    (hpeer : peer.Settings P e) :
    e.con.maxAckInAir < e.con.ackModulus ∧
      e.con.maxAckInAir ≤ if e.con.isSocket then 721416 else 255 := by
  obtain ⟨-, hmax⟩ := h.dst_bounds hpeer
  rw [h.maxAckInAir]
  unfold maxAckInAirOf Connection.ackModulus
  unfold maxFrameSz at hmax
  cases e.con.isSocket with
  | true =>
      simp only [if_true, socketMaxAckInAir, socketMaxInAir,
        socketUnacknowledgedLimit, socketNroAcksToReserve, socketAckSize]
      omega
  | false =>
      simp only [Bool.false_eq_true, if_false]
      decide

theorem FlowEnd.Bounded.lastAck_le (h : e.Bounded P peer) :
    lastAck e.history ≤ e.received :=
  AcknowledgedWindow.lastAck_le h.counts.history_stamps

theorem FlowEnd.Bounded.received_le (h : e.Bounded P peer) :
    e.received ≤ peer.placedBytes :=
  h.counts.received.trans peer.sentBytes_le

/-- The other end knows no more than what this one acknowledged. -/
theorem FlowEnd.Bounded.covered_le (h : e.Bounded P peer)
    (hpeer : peer.Bounded P e) : peer.coveredBytes e ≤ lastAck e.history := by
  have hmono := h.valid.history.covered_mono hpeer.received_le
  have htotal : covered e.history e.placedBytes = lastAck e.history :=
    AcknowledgedWindow.covered_of_total_le le_rfl
  exact hmono.trans htotal.le

/-- Counting the frame buffer, the amount in the air is told exactly. -/
theorem FlowEnd.Bounded.inAir_eq (h : e.Bounded P peer)
    (hpeer : peer.Bounded P e) : e.con.inAir = e.inAirBytes peer := by
  have hlimit := (h.settings.maxAckInAir_lt hpeer.settings).1
  have hwithin := h.within
  have hle := e.sentBytes_le
  have hcovered := hpeer.counts.coveredBytes_le
  rw [h.counts.inAir_eq hpeer.counts]
  refine Nat.mod_eq_of_lt ?_
  unfold FlowEnd.inAirBytes
  omega

/-- What has been received and not acknowledged, by the counters. -/
theorem FlowEnd.Bounded.unacknowledged_eq (h : e.Bounded P peer)
    (hpeer : peer.Bounded P e) (hplaced : e.placed ≠ []) :
    e.con.unacknowledged = e.received - lastAck e.history := by
  have hle := h.lastAck_le
  have hcovered := h.covered_le hpeer
  have hreceived := h.received_le
  have hwithin := hpeer.within
  have hlimit := (hpeer.settings.maxAckInAir_lt h.settings).1
  have hmodulus : peer.con.ackModulus = e.con.ackModulus := by
    unfold Connection.ackModulus
    rw [h.counts.sameKind]
  have hacknowledged := h.acknowledged
  rw [if_neg hplaced] at hacknowledged
  unfold Connection.unacknowledged
  rw [masked_difference hle e.con.ackModulus_dvd]
  · refine Nat.mod_eq_of_lt ?_
    omega
  · rw [h.counts.bytesReceived, Nat.mod_mod_of_dvd _ e.con.ackModulus_dvd]
  · rw [hacknowledged, Nat.mod_mod_of_dvd _ e.con.ackModulus_dvd]

theorem ackModulus_of_socket {con : Connection} (h : con.isSocket = true) :
    con.ackModulus = 0x1000000 := by
  unfold Connection.ackModulus
  rw [h]
  rfl

theorem ackModulus_of_serial {con : Connection} (h : con.isSocket = false) :
    con.ackModulus = 0x10000 := by
  unfold Connection.ackModulus
  rw [h]
  rfl

theorem FlowEnd.Bounded.owes_first (h : e.Bounded P peer)
    (hpeer : peer.Bounded P e) (hplaced : e.placed = []) :
    e.con.unacknowledgedLimit ≤ e.con.unacknowledged := by
  have hreceived := h.received_le
  have hcovered := h.covered_le hpeer
  have hnone : lastAck e.history = 0 := by
    unfold FlowEnd.history
    rw [hplaced]
    rfl
  have hwithin := hpeer.within
  have hlimit := (hpeer.settings.maxAckInAir_lt h.settings).2
  have hacknowledged := h.acknowledged
  rw [if_pos hplaced] at hacknowledged
  rw [h.settings.limit, h.settings.limit_eq]
  unfold Connection.unacknowledged
  rw [hacknowledged, h.counts.bytesReceived]
  cases hkind : e.con.isSocket with
  | true =>
      rw [h.counts.sameKind, hkind] at hlimit
      rw [ackModulus_of_socket hkind]
      simp only [if_true] at hlimit ⊢
      omega
  | false =>
      rw [h.counts.sameKind, hkind] at hlimit
      rw [ackModulus_of_serial hkind]
      simp only [Bool.false_eq_true, if_false] at hlimit ⊢
      omega

theorem FlowEnd.Bounded.early_bytes (h : e.Bounded P peer)
    (hpeer : peer.Bounded P e) (hkind : e.con.isSocket = true)
    (hunreceived : e.con.authenticationReceived = false) :
    e.placedBytes ≤ 1100 := by
  have hpeerkind := h.counts.sameKind.trans hkind
  have hbytes := h.handshake.unreceivedBytes hkind hunreceived
  have hack := h.lastAck_le
  have hpeerack := hpeer.lastAck_le
  have hreceived := h.received_le
  have hpeerreceived := hpeer.received_le
  cases hsent : peer.con.authenticationSent with
  | false =>
      have := hpeer.handshake.unsentBytes hpeerkind hsent
      omega
  | true =>
      obtain ⟨before, p, after, frameSz, size, -, -, hsize, hbefore⟩ :=
        hpeer.handshake.sent hsent
      have := hsize hpeerkind
      have := hbefore hunreceived
      omega

theorem FlowEnd.Bounded.unsent_bytes (h : e.Bounded P peer)
    (hpeer : peer.Bounded P e) (hkind : e.con.isSocket = true)
    (hunsent : e.con.authenticationSent = false) : e.placedBytes ≤ 20 := by
  have hbytes := h.handshake.unsentBytes hkind hunsent
  have hpeerbytes := hpeer.handshake.unreceivedBytes
    (h.counts.sameKind.trans hkind) (h.handshake.unsent hunsent).2
  have hack := h.lastAck_le
  have hpeerack := hpeer.lastAck_le
  have hreceived := h.received_le
  have hpeerreceived := hpeer.received_le
  omega

/-! ## Steps -/

/-- The settings of an end depend on what the configuration of the two
connections and the authentication messages say. -/
theorem FlowEnd.Settings.congr {f peer' : FlowEnd} (h : e.Settings P peer)
    (hcon : f.con =
      { e.con with
        bytesSent := f.con.bytesSent
        processedBytes := f.con.processedBytes
        bytesReceived := f.con.bytesReceived
        bytesAcknowledged := f.con.bytesAcknowledged
        frameOutUsed := f.con.frameOutUsed
        frameOutPos := f.con.frameOutPos
        frameOutNr := f.con.frameOutNr
        authenticationSent := f.con.authenticationSent })
    (hpeer : peer'.con.frameSz = peer.con.frameSz)
    (htold : ∀ p ∈ f.placed, ∀ frameSz size,
      p.message = .authentication frameSz size → frameSz = e.con.frameSz) :
    f.Settings P peer' := by
  have hkind : f.con.isSocket = e.con.isSocket := by rw [hcon]
  have hsz : f.con.frameSz = e.con.frameSz := by rw [hcon]
  have hdst : f.con.dstFrameSz = e.con.dstFrameSz := by rw [hcon]
  exact
    { limit := (congrArg Connection.unacknowledgedLimit hcon).trans h.limit
      limit_eq := by rw [hkind]; exact h.limit_eq
      ackSize := by rw [hkind]; exact h.ackSize
      window := by rw [hkind, hsz, hpeer]; exact h.window
      frameSz := by rw [hsz]; exact h.frameSz
      serial := by rw [hkind, hsz]; exact h.serial
      dstFrameSz := by
        have hreceived : f.con.authenticationReceived =
            e.con.authenticationReceived := by rw [hcon]
        rw [hdst, hsz, hpeer, hreceived]
        exact h.dstFrameSz
      maxInAir := by
        rw [hkind, hdst]
        exact (congrArg Connection.maxInAir hcon).trans h.maxInAir
      maxAckInAir := by
        rw [hkind, hdst]
        exact (congrArg Connection.maxAckInAir hcon).trans h.maxAckInAir
      told := by rw [hsz]; exact htold }

/-- Of the other end, the handshake depends only on what it has received. -/
theorem FlowEnd.Handshake.congr_peer {f : FlowEnd} (h : peer.Handshake e)
    (hknown : f.con.authenticationReceived = e.con.authenticationReceived)
    (hreceived : f.received = e.received) : peer.Handshake f :=
  { unsent := by rw [hknown]; exact h.unsent
    unsentBytes := h.unsentBytes
    unreceivedBytes := h.unreceivedBytes
    sent := by rw [hknown, hreceived]; exact h.sent }

theorem FlowEnd.Bounded.write (h : e.Bounded P peer) (hpeer : peer.Bounded P e)
    (accepted : ℕ) :
    FlowEnd.Bounded P { e with con := e.con.writeToStream accepted } peer ∧
      peer.Bounded P { e with con := e.con.writeToStream accepted } := by
  obtain ⟨hcounts, hpeercounts⟩ := h.counts.write hpeer.counts accepted
  have hsame := e.con.writeToStream_same accepted
  generalize e.con.writeToStream accepted = con at hcounts hpeercounts hsame ⊢
  have hkind : con.isSocket = e.con.isSocket := by rw [hsame]
  have hsz : con.frameSz = e.con.frameSz := by rw [hsame]
  have hsent : con.authenticationSent = e.con.authenticationSent := by rw [hsame]
  have hreceived : con.authenticationReceived = e.con.authenticationReceived := by
    rw [hsame]
  have hhistory : FlowEnd.history { e with con := con } = e.history := by
    unfold FlowEnd.history
    dsimp only
    rw [hkind]
  have hside : FlowEnd.side { e with con := con } = e.side := by
    unfold FlowEnd.side
    rw [hhistory]
  have hbytes : FlowEnd.placedBytes { e with con := con } = e.placedBytes := by
    unfold FlowEnd.placedBytes
    rw [hhistory]
  have hcovered : peer.coveredBytes { e with con := con } = peer.coveredBytes e := by
    unfold FlowEnd.coveredBytes
    rw [hhistory]
  refine ⟨?_, ?_⟩
  · exact
      { counts := hcounts
        settings := h.settings.congr (by dsimp only; rw [hsame]) rfl h.settings.told
        valid := by rw [hside]; exact h.valid
        acknowledged := by
          rw [hhistory]
          exact (congrArg Connection.bytesAcknowledged hsame).trans h.acknowledged
        within := by
          rw [hbytes]
          exact h.within.trans (by
            dsimp only
            rw [congrArg Connection.maxAckInAir hsame]
            exact le_rfl)
        handshake :=
          { unsent := by
              dsimp only
              rw [hsent]
              exact h.handshake.unsent
            unsentBytes := by
              rw [hhistory, hbytes]
              dsimp only
              rw [hkind, hsent]
              exact h.handshake.unsentBytes
            unreceivedBytes := by
              rw [hhistory, hbytes]
              dsimp only
              rw [hkind, hreceived]
              exact h.handshake.unreceivedBytes
            sent := by
              dsimp only
              rw [hsent, hkind]
              exact h.handshake.sent } }
  · exact
      { counts := hpeercounts
        settings := hpeer.settings.congr rfl hsz hpeer.settings.told
        valid := by rw [hside]; exact hpeer.valid
        acknowledged := hpeer.acknowledged
        within := by rw [hcovered]; exact hpeer.within
        handshake := hpeer.handshake.congr_peer hreceived rfl }

/-- Putting a message into the frame buffer is a move of the exchange. -/
theorem FlowEnd.Bounded.place (h : e.Bounded P peer) (hpeer : peer.Bounded P e)
    {con : Connection} {message : FlowMessage}
    (hfree : e.con.frameOutUsed = 0)
    (hpos : 0 < message.size e.con.isSocket)
    (hwire : ∀ n, message = .acknowledge n → n = e.received % e.con.ackModulus)
    (hcon : con =
      { e.con with
        frameOutUsed := message.size e.con.isSocket
        bytesAcknowledged := con.bytesAcknowledged
        frameOutNr := con.frameOutNr
        authenticationSent := con.authenticationSent })
    (hmove : AcknowledgedWindow.Move P e.side peer.side
      { e.side with
        items := e.side.items ++
          [⟨message.isAck, message.size e.con.isSocket, e.received⟩] })
    (hwithin : ((e.placedBytes + message.size e.con.isSocket : ℕ) : ℤ) ≤
      e.coveredBytes peer + e.con.maxAckInAir)
    (hacknowledged : con.bytesAcknowledged =
      (if message.isAck then e.received else lastAck e.history) % 0x100000000)
    (htold : ∀ frameSz size, message = .authentication frameSz size →
      frameSz = e.con.frameSz)
    (hhandshake : (e.place (con, [message])).Handshake peer ∧
      peer.Handshake (e.place (con, [message]))) :
    (e.place (con, [message])).Bounded P peer ∧
      peer.Bounded P (e.place (con, [message])) := by
  obtain ⟨hcounts, hpeercounts⟩ := h.counts.place hpeer.counts hfree hpos hwire hcon
  have hkind : con.isSocket = e.con.isSocket := by rw [hcon]
  have hsz : con.frameSz = e.con.frameSz := by rw [hcon]
  obtain ⟨hhistory, hbytes⟩ := e.placedBytes_place con message hkind
  have hside : (e.place (con, [message])).side =
      { e.side with
        items := e.side.items ++
          [⟨message.isAck, message.size e.con.isSocket, e.received⟩] } := by
    unfold FlowEnd.side
    rw [hhistory]
    rfl
  obtain ⟨hvalid, hpeervalid⟩ := h.valid.move hpeer.valid hmove
  have hcovered : peer.coveredBytes (e.place (con, [message])) =
      peer.coveredBytes e := by
    unfold FlowEnd.coveredBytes
    rw [hhistory]
    refine AcknowledgedWindow.covered_append_of_lt ?_
    have hle := hpeer.received_le
    unfold FlowEnd.placedBytes at hle
    dsimp only
    omega
  refine ⟨?_, ?_⟩
  · exact
      { counts := hcounts
        settings := h.settings.congr (by
            show con = _
            rw [hcon]
            rfl) rfl (fun p hp frameSz size hmessage => by
          rcases List.mem_append.mp hp with hp | hp
          · exact h.settings.told p hp frameSz size hmessage
          · obtain rfl := List.mem_singleton.mp hp
            exact htold frameSz size hmessage)
        valid := by rw [hside]; exact hvalid
        acknowledged := by
          rw [hhistory, AcknowledgedWindow.lastAck_append, if_neg (by
            unfold FlowEnd.place
            simp)]
          exact hacknowledged
        within := by
          rw [hbytes]
          refine hwithin.trans ?_
          show _ ≤ (e.coveredBytes peer : ℤ) + con.maxAckInAir
          rw [congrArg Connection.maxAckInAir hcon]
        handshake := hhandshake.1 }
  · exact
      { counts := hpeercounts
        settings := hpeer.settings.congr rfl hsz hpeer.settings.told
        valid := by rw [hside]; exact hpeervalid
        acknowledged := hpeer.acknowledged
        within := by rw [hcovered]; exact hpeer.within
        handshake := hhandshake.2 }

/-- In the free frame buffer, the room which the counters tell is there. -/
theorem FlowEnd.Bounded.room (h : e.Bounded P peer) (hpeer : peer.Bounded P e)
    (hfree : e.con.frameOutUsed = 0) {size : ℕ} {limit : ℤ}
    (hroom : (size : ℤ) ≤ limit - e.con.inAir) :
    ((e.placedBytes + size : ℕ) : ℤ) ≤ e.coveredBytes peer + limit := by
  have hsent : e.sentBytes = e.placedBytes := by
    unfold FlowEnd.sentBytes
    rw [hfree, Nat.zero_sub, Nat.sub_zero]
  have hcovered := hpeer.counts.coveredBytes_le
  rw [h.inAir_eq hpeer] at hroom
  unfold FlowEnd.inAirBytes at hroom
  omega

theorem FlowEnd.Bounded.acknowledge (h : e.Bounded P peer)
    (hpeer : peer.Bounded P e) (hfree : e.con.frameOutUsed = 0)
    (hdue : e.con.unacknowledgedLimit ≤ e.con.unacknowledged)
    (hroom : (e.con.ackSize : ℤ) ≤ e.con.maxAckInAir - e.con.inAir) :
    (e.place (e.con.putAcknowledge.1, [e.con.putAcknowledge.2])).Bounded P peer ∧
      peer.Bounded P
        (e.place (e.con.putAcknowledge.1, [e.con.putAcknowledge.2])) := by
  have hsize : e.con.putAcknowledge.2.size e.con.isSocket = P.ackSize :=
    h.settings.ackSize.symm
  have hitem : (⟨e.con.putAcknowledge.2.isAck,
      e.con.putAcknowledge.2.size e.con.isSocket, e.received⟩ : Item) =
        ⟨true, P.ackSize, e.received⟩ := by
    rw [hsize]
    rfl
  have howed : e.placed = [] ∨ lastAck e.history + P.limit ≤ e.received := by
    by_cases hplaced : e.placed = []
    · exact .inl hplaced
    · right
      rw [h.unacknowledged_eq hpeer hplaced, h.settings.limit] at hdue
      have := h.lastAck_le
      have := P.ackSize_pos
      have := P.ackSize_le_limit
      omega
  obtain ⟨hhistory, hbytes⟩ :=
    e.placedBytes_place e.con.putAcknowledge.1 e.con.putAcknowledge.2 rfl
  refine h.place hpeer hfree (by rw [hsize]; exact P.ackSize_pos) ?_ rfl ?_ ?_ ?_
    (fun frameSz size hmessage => by cases hmessage) ?_
  · rintro n hn
    obtain rfl := FlowMessage.acknowledge.inj hn
    rw [h.counts.bytesReceived, Nat.mod_mod_of_dvd _ e.con.ackModulus_dvd]
  · rw [hitem]
    refine .ack (howed.imp_left fun hplaced => ?_)
    show e.history = []
    unfold FlowEnd.history
    rw [hplaced]
    rfl
  · rw [show e.con.putAcknowledge.2.size e.con.isSocket = e.con.ackSize from rfl]
    exact h.room hpeer hfree hroom
  · exact h.counts.bytesReceived
  · have hlast : lastAck (e.place
        (e.con.putAcknowledge.1, [e.con.putAcknowledge.2])).history =
          e.received := by
      rw [hhistory, AcknowledgedWindow.lastAck_append]
      rfl
    -- An acknowledgement tells of at least 500 more bytes, but for the first.
    have hmore : e.con.isSocket = true → ∀ allowed, 2000 ≤ allowed →
        500 * e.placedBytes ≤ allowed + 4 * lastAck e.history →
          500 * (e.placedBytes + e.con.putAcknowledge.2.size e.con.isSocket) ≤
            allowed + 4 * e.received := by
      intro hsocket allowed hallowed hbytes
      have hfour : P.ackSize = 4 := by
        rw [h.settings.ackSize, hsocket]
        rfl
      have hlimit : P.limit = 500 := by
        rw [h.settings.limit_eq, hsocket]
        rfl
      rw [hsize, hfour]
      rcases howed with hplaced | hdue
      · have hnone : e.placedBytes = 0 := by
          unfold FlowEnd.placedBytes FlowEnd.history
          rw [hplaced]
          rfl
        omega
      · omega
    refine ⟨?_, hpeer.handshake.congr_peer rfl rfl⟩
    exact
      { unsent := fun hunsent => by
          obtain ⟨hacks, hunreceived⟩ := h.handshake.unsent hunsent
          refine ⟨fun p hp => ?_, hunreceived⟩
          rcases List.mem_append.mp hp with hp | hp
          · exact hacks p hp
          · obtain rfl := List.mem_singleton.mp hp
            rfl
        unsentBytes := fun hsocket hunsent => by
          rw [hlast, hbytes]
          exact hmore hsocket _ (by omega) (h.handshake.unsentBytes hsocket hunsent)
        unreceivedBytes := fun hsocket hunreceived => by
          rw [hlast, hbytes]
          exact hmore hsocket _ (by omega)
            (h.handshake.unreceivedBytes hsocket hunreceived)
        sent := fun hsent => by
          obtain ⟨before, p, after, frameSz, size, hplaced, hrest⟩ :=
            h.handshake.sent hsent
          refine ⟨before, p,
            after ++ [⟨e.con.putAcknowledge.2, e.received⟩], frameSz, size,
            ?_, hrest⟩
          unfold FlowEnd.place
          rw [hplaced]
          simp }

/-- An end which need not acknowledge has done so before, and owes nothing. -/
theorem FlowEnd.Bounded.quiet (h : e.Bounded P peer) (hpeer : peer.Bounded P e)
    (hquiet : e.con.unacknowledged < e.con.unacknowledgedLimit) :
    e.placed ≠ [] ∧ e.received < lastAck e.history + P.limit := by
  have hplaced : e.placed ≠ [] := fun hnil =>
    absurd (h.owes_first hpeer hnil) (not_le.mpr hquiet)
  rw [h.unacknowledged_eq hpeer hplaced, h.settings.limit] at hquiet
  have := h.lastAck_le
  exact ⟨hplaced, by omega⟩

theorem FlowEnd.Settings.maxInAir_le (h : e.Settings P peer) :
    e.con.maxInAir ≤ e.con.maxAckInAir := by
  rw [h.maxInAir, h.maxAckInAir]
  unfold maxInAirOf maxAckInAirOf
  cases e.con.isSocket with
  | true =>
      simp only [if_true, socketMaxAckInAir, socketUnacknowledgedLimit,
        socketNroAcksToReserve, socketAckSize]
      omega
  | false =>
      simp only [Bool.false_eq_true, if_false]
      decide

/-- The window of a serial connection, or after the authentication. -/
theorem FlowEnd.Settings.maxInAir_eq (h : e.Settings P peer)
    (hknown : e.con.isSocket = true → e.con.authenticationReceived = true) :
    e.con.maxInAir = P.window := by
  rw [h.maxInAir, h.window]
  cases hkind : e.con.isSocket with
  | true => rw [h.dstFrameSz, if_pos (hknown hkind)]
  | false => rfl

theorem FlowEnd.Settings.window_ge (h : e.Settings P peer)
    (hpeer : peer.Settings P e) (hsocket : e.con.isSocket = true) :
    4224 ≤ P.window := by
  have hwindow := h.window
  have hmin : minFrameSz ≤ min e.con.frameSz peer.con.frameSz :=
    le_min h.frameSz.1 hpeer.frameSz.1
  rw [hsocket] at hwindow
  unfold maxInAirOf socketMaxInAir at hwindow
  unfold minFrameSz at hmin
  simp only [if_true] at hwindow
  omega

/-- Data and authentication messages are put into the frame buffer in the same
way. -/
theorem FlowEnd.Bounded.finish (h : e.Bounded P peer) (hpeer : peer.Bounded P e)
    {con con' : Connection} {message : FlowMessage} {size : ℕ}
    (hfree : e.con.frameOutUsed = 0)
    (hquiet : e.con.unacknowledged < e.con.unacknowledgedLimit)
    (hpos : 0 < size) (hack : message.isAck = false)
    (hsize : message.size e.con.isSocket = size)
    (hfinish : e.con.finishFrame size = some con)
    (hcon : con' = { con with authenticationSent := con'.authenticationSent })
    (hwindow : e.con.maxInAir = P.window ∨
      e.con.isSocket = true ∧ e.placedBytes + size ≤ 4224)
    (htold : ∀ frameSz size, message = .authentication frameSz size →
      frameSz = e.con.frameSz)
    (hhandshake : (e.place (con', [message])).Handshake peer ∧
      peer.Handshake (e.place (con', [message]))) :
    (e.place (con', [message])).Bounded P peer ∧
      peer.Bounded P (e.place (con', [message])) := by
  obtain ⟨hroom, rfl⟩ := Connection.finishFrame_eq_some hfinish
  obtain ⟨hplaced, howed⟩ := h.quiet hpeer hquiet
  have hbytes := h.room hpeer hfree hroom
  have hwithin : ((e.placedBytes + size : ℕ) : ℤ) ≤
      e.coveredBytes peer + e.con.maxAckInAir := by
    have := h.settings.maxInAir_le
    omega
  have hinside : e.placedBytes + size ≤ e.coveredBytes peer + P.window := by
    rcases hwindow with heq | ⟨hsocket, hearly⟩
    · rw [heq] at hbytes
      exact_mod_cast hbytes
    · have := h.settings.window_ge hpeer.settings hsocket
      omega
  refine h.place hpeer hfree (by rw [hsize]; exact hpos)
    (fun n hn => ?_) (by rw [hsize, hcon]) ?_ (by rw [hsize]; exact hwithin)
    ?_ htold hhandshake
  · rw [hn] at hack
    cases hack
  · rw [hack, hsize]
    exact .data size hpos
      (fun hnil => hplaced (List.map_eq_nil_iff.mp hnil)) howed hinside
  · rw [hack, if_neg Bool.false_ne_true, congrArg Connection.bytesAcknowledged hcon]
    have hacknowledged := h.acknowledged
    rw [if_neg hplaced] at hacknowledged
    exact hacknowledged

theorem FlowEnd.Bounded.authentication (h : e.Bounded P peer)
    (hpeer : peer.Bounded P e) {con : Connection} {size : ℕ}
    (hfree : e.con.frameOutUsed = 0)
    (hquiet : e.con.unacknowledged < e.con.unacknowledgedLimit)
    (hpos : 0 < size) (hsize : size ≤ maxAuthenticationSz)
    (hsent : e.con.authenticationSent = false)
    (hfinish : e.con.finishFrame size = some con) :
    (e.place ({ con with authenticationSent := true },
        [.authentication e.con.frameSz size])).Bounded P peer ∧
      peer.Bounded P (e.place ({ con with authenticationSent := true },
        [.authentication e.con.frameSz size])) := by
  obtain ⟨-, hcon⟩ := Connection.finishFrame_eq_some hfinish
  have hkind : con.isSocket = e.con.isSocket := by rw [hcon]
  obtain ⟨hhistory, hbytes⟩ := e.placedBytes_place
    { con with authenticationSent := true } (.authentication e.con.frameSz size) hkind
  unfold maxAuthenticationSz at hsize
  refine h.finish hpeer hfree hquiet hpos rfl rfl hfinish rfl ?_
    (fun frameSz size hmessage => (FlowMessage.authentication.inj hmessage).1.symm)
    ?_
  · by_cases hsocket : e.con.isSocket = true
    · right
      have := h.unsent_bytes hpeer hsocket hsent
      exact ⟨hsocket, by omega⟩
    · left
      exact h.settings.maxInAir_eq fun hsocket' => absurd hsocket' hsocket
  · have hlast : lastAck (e.place ({ con with authenticationSent := true },
        [.authentication e.con.frameSz size])).history = lastAck e.history := by
      rw [hhistory, AcknowledgedWindow.lastAck_append]
      rfl
    have hknown : con.authenticationReceived = e.con.authenticationReceived := by
      rw [hcon]
    refine ⟨?_, hpeer.handshake.congr_peer hknown rfl⟩
    exact
      { unsent := fun hunsent => by cases hunsent
        unsentBytes := fun _ hunsent => by cases hunsent
        unreceivedBytes := fun hsocket _ => by
          rw [hlast, hbytes]
          show 500 * (e.placedBytes + size) ≤ _
          have := h.handshake.unsentBytes (hkind.symm.trans hsocket) hsent
          omega
        sent := fun _ => by
          refine ⟨e.placed, ⟨.authentication e.con.frameSz size, e.received⟩, [],
            e.con.frameSz, size, rfl, rfl, fun hsocket => ?_, fun _ => ?_⟩
          · show total (e.placed.map (Placed.item con.isSocket)) + size ≤ 2048
            rw [hkind]
            show e.placedBytes + size ≤ 2048
            have := h.unsent_bytes hpeer (hkind.symm.trans hsocket) hsent
            omega
          · show peer.received <
              total (e.placed.map (Placed.item con.isSocket)) + size
            rw [hkind]
            show peer.received < e.placedBytes + size
            have := hpeer.received_le
            omega }

theorem FlowEnd.Bounded.frame (h : e.Bounded P peer) (hpeer : peer.Bounded P e)
    {con : Connection} {size : ℕ} (hfree : e.con.frameOutUsed = 0)
    (hquiet : e.con.unacknowledged < e.con.unacknowledgedLimit) (hpos : 0 < size)
    (hsent : e.con.authenticationSent = true)
    (hreceived : e.con.authenticationReceived = true)
    (hfinish : e.con.finishFrame size = some con) :
    (e.place (con, [.frame size])).Bounded P peer ∧
      peer.Bounded P (e.place (con, [.frame size])) := by
  obtain ⟨-, hcon⟩ := Connection.finishFrame_eq_some hfinish
  have hsent' : con.authenticationSent = true := by
    rw [hcon]
    exact hsent
  have hreceived' : con.authenticationReceived = true := by
    rw [hcon]
    exact hreceived
  have hkind : con.isSocket = e.con.isSocket := by rw [hcon]
  refine h.finish hpeer hfree hquiet hpos rfl rfl hfinish rfl
    (.inl (h.settings.maxInAir_eq fun _ => hreceived))
    (fun frameSz size hmessage => by cases hmessage)
    ⟨?_, hpeer.handshake.congr_peer (hreceived'.trans hreceived.symm) rfl⟩
  exact
    { unsent := fun hunsent => absurd hsent' (Bool.eq_false_iff.mp hunsent)
      unsentBytes := fun _ hunsent => absurd hsent' (Bool.eq_false_iff.mp hunsent)
      unreceivedBytes := fun _ hunreceived =>
        absurd hreceived' (Bool.eq_false_iff.mp hunreceived)
      sent := fun _ => by
        obtain ⟨before, p, after, frameSz, length, hplaced, hmessage, hrest⟩ :=
          h.handshake.sent hsent
        refine ⟨before, p, after ++ [⟨.frame size, e.received⟩], frameSz, length,
          ?_, hmessage, ?_⟩
        · unfold FlowEnd.place
          rw [hplaced]
          simp
        · show (con.isSocket = true →
              total (before.map (Placed.item con.isSocket)) + length ≤ 2048) ∧
            (peer.con.authenticationReceived = false → peer.received <
              total (before.map (Placed.item con.isSocket)) + length)
          rw [hkind]
          exact hrest }

/-- A received authentication message of the other end sets the frame size which
both ends can take, and the limits with it. -/
theorem FlowEnd.Settings.handle (h : e.Settings P peer) (hpeer : peer.Settings P e)
    (hkind : peer.con.isSocket = e.con.isSocket)
    {p : Placed} (hmem : p ∈ peer.placed) (bytes received : ℕ) :
    FlowEnd.Settings P
      { e with
        con := Connection.handle { e.con with bytesReceived := bytes } p.message
        received := received } peer := by
  have hsame : ∀ f : FlowEnd, f.con = { e.con with bytesReceived := bytes } →
      f.placed = e.placed → f.Settings P peer := by
    intro f hf hplaced
    exact h.congr (by rw [hf]) rfl (by rw [hplaced]; exact h.told)
  cases hmessage : p.message with
  | acknowledge told =>
      exact h.congr rfl rfl h.told
  | frame size => exact hsame _ rfl rfl
  | authentication frameSz size =>
      obtain rfl := hpeer.told p hmem frameSz size hmessage
      have hrange := hpeer.frameSz
      have hdst := h.dstFrameSz
      have hmin : (if peer.con.frameSz < e.con.dstFrameSz then peer.con.frameSz
          else e.con.dstFrameSz) = min e.con.frameSz peer.con.frameSz := by
        rw [hdst]
        cases e.con.authenticationReceived with
        | true =>
            simp only [if_true]
            rw [if_neg (not_lt.mpr (min_le_right _ _))]
        | false =>
            simp only [Bool.false_eq_true, if_false]
            by_cases hlt : peer.con.frameSz < e.con.frameSz
            · rw [if_pos hlt, min_eq_right hlt.le]
            · rw [if_neg hlt, min_eq_left (not_lt.mp hlt)]
      unfold Connection.handle
      dsimp only
      by_cases hlt : peer.con.frameSz < e.con.dstFrameSz
      · rw [if_pos ⟨hrange.1, hrange.2, hlt⟩]
        rw [if_pos hlt] at hmin
        have hsocket : e.con.isSocket = true := by
          by_contra hserial
          rw [Bool.not_eq_true] at hserial
          have hown := h.serial hserial
          have hother := hpeer.serial (hkind.trans hserial)
          rw [hdst, hown, hother] at hlt
          split at hlt <;> simp at hlt
        exact
          { limit := h.limit
            limit_eq := h.limit_eq
            ackSize := h.ackSize
            window := h.window
            frameSz := h.frameSz
            serial := h.serial
            dstFrameSz := hmin
            maxInAir := by
              dsimp only
              rw [hsocket]
              rfl
            maxAckInAir := by
              dsimp only
              rw [hsocket]
              rfl
            told := h.told }
      · rw [if_neg fun hcond => hlt hcond.2.2]
        rw [if_neg hlt] at hmin
        exact
          { limit := h.limit
            limit_eq := h.limit_eq
            ackSize := h.ackSize
            window := h.window
            frameSz := h.frameSz
            serial := h.serial
            dstFrameSz := hmin
            maxInAir := h.maxInAir
            maxAckInAir := h.maxAckInAir
            told := h.told }

theorem append_cons_eq_append_cons
    {α : Type*} {before before' after after' : List α} {a a' : α}
    (h : before ++ a :: after = before' ++ a' :: after') :
    (before = before' ∧ a = a') ∨ (∃ c, before = before' ++ a' :: c) ∨
      ∃ c, before' = before ++ a :: c := by
  rcases List.append_eq_append_iff.mp h with ⟨c, hc, hrest⟩ | ⟨c, hc, hrest⟩
  · cases c with
    | nil =>
        rw [List.append_nil] at hc
        exact .inl ⟨hc.symm, (List.cons.inj hrest).1⟩
    | cons first c =>
        obtain rfl := (List.cons.inj hrest).1
        exact .inr (.inr ⟨c, hc⟩)
  · cases c with
    | nil =>
        rw [List.append_nil] at hc
        exact .inl ⟨hc, (List.cons.inj hrest).1.symm⟩
    | cons first c =>
        obtain rfl := (List.cons.inj hrest).1
        exact .inr (.inl ⟨c, hc⟩)

theorem total_append_cons (before after : List Item) (item : Item) :
    total (before ++ item :: after) = total before + item.size + total after := by
  induction before with
  | nil => simp [total]
  | cons first before ih =>
      simp only [List.cons_append, total, ih]
      omega

theorem Connection.handle_authenticationReceived
    (con : Connection) (message : FlowMessage) :
    (con.handle message).authenticationReceived =
      (con.authenticationReceived ||
        match message with
        | .authentication _ _ => true
        | _ => false) := by
  cases message with
  | acknowledge told => simp [Connection.handle]
  | frame size => simp [Connection.handle]
  | authentication frameSz size =>
      unfold Connection.handle
      dsimp only
      rw [Bool.or_true]

theorem FlowEnd.Bounded.receive (h : e.Bounded P peer) (hpeer : peer.Bounded P e)
    {n : ℕ} (hreceive : e.receive peer n = some e') :
    e'.Bounded P peer ∧ peer.Bounded P e' := by
  obtain ⟨hcounts, hpeercounts⟩ := h.counts.receive hpeer.counts hreceive
  rcases FlowEnd.receive_cases hreceive with
    rfl | ⟨before, p, after, left, hplaced, hle, hleft, hpos, hn, hwritten, he'⟩
  · exact ⟨h, hpeer⟩
  have hmem : p ∈ peer.placed := by
    rw [hplaced]
    exact List.mem_append_right _ (List.mem_cons_self ..)
  -- The settings, whether the message is complete or not.
  have hsettings : e'.Settings P peer := by
    rw [he']
    dsimp only
    split
    · exact h.settings.handle hpeer.settings h.counts.sameKind hmem _ _
    · exact h.settings.congr rfl rfl h.settings.told
  have hknown : e'.con.authenticationReceived =
      (e.con.authenticationReceived || (decide (n = left) &&
        match p.message with
        | .authentication _ _ => true
        | _ => false)) := by
    rw [he']
    dsimp only
    split
    · rename_i hwhole
      rw [Connection.handle_authenticationReceived]
      simp [hwhole]
    · rename_i hpart
      simp [hpart]
  have hsame : e'.con =
      { e.con with
        bytesReceived := (e.con.bytesReceived + n) % 0x100000000
        processedBytes := e'.con.processedBytes
        dstFrameSz := e'.con.dstFrameSz
        maxInAir := e'.con.maxInAir
        maxAckInAir := e'.con.maxAckInAir
        authenticationReceived := e'.con.authenticationReceived } := by
    rw [he']
    dsimp only
    split
    · exact Connection.handle_same _ _
    · rfl
  have hkind : e'.con.isSocket = e.con.isSocket := by rw [hsame]
  have hsz : e'.con.frameSz = e.con.frameSz := by rw [hsame]
  have hsent : e'.con.authenticationSent = e.con.authenticationSent := by rw [hsame]
  have hold : e'.placed = e.placed := by rw [he']
  have hmore : e'.received = e.received + n := by rw [he']
  have hhistory : e'.history = e.history := by
    unfold FlowEnd.history
    rw [hold, hkind]
  have hbytes : e'.placedBytes = e.placedBytes := by
    unfold FlowEnd.placedBytes
    rw [hhistory]
  have hcovered : peer.coveredBytes e' = peer.coveredBytes e := by
    unfold FlowEnd.coveredBytes
    rw [hhistory]
  have hgrows : e.coveredBytes peer ≤ e'.coveredBytes peer := by
    unfold FlowEnd.coveredBytes
    rw [hmore]
    exact hpeer.valid.history.covered_mono (Nat.le_add_right _ _)
  have hside : e'.side = { e.side with received := e.side.received + n } := by
    unfold FlowEnd.side
    rw [hhistory, hmore]
  obtain ⟨hvalid, hpeervalid⟩ := h.valid.move hpeer.valid
    (.receive n (hwritten.trans peer.sentBytes_le))
  have hwithin : (e'.placedBytes : ℤ) ≤ e'.coveredBytes peer + e'.con.maxAckInAir := by
    have hwas := h.within
    rw [hbytes]
    by_cases hunchanged : e'.con.maxAckInAir = e.con.maxAckInAir
    · rw [hunchanged]
      omega
    · -- The limit is lowered before much has been sent.
      have hsocket : e.con.isSocket = true := by
        by_contra hserial
        rw [Bool.not_eq_true] at hserial
        apply hunchanged
        rw [hsettings.maxAckInAir, h.settings.maxAckInAir, hkind, hserial]
        rfl
      have hearly : e.con.authenticationReceived = false := by
        by_contra hreceived
        rw [Bool.not_eq_false] at hreceived
        have hreceived' : e'.con.authenticationReceived = true := by
          rw [hknown, hreceived, Bool.true_or]
        apply hunchanged
        rw [hsettings.maxAckInAir, h.settings.maxAckInAir, hkind,
          hsettings.dstFrameSz, h.settings.dstFrameSz, hreceived, hreceived', hsz]
      have hfew := h.early_bytes hpeer hsocket hearly
      have hlimit := (hsettings.dst_bounds (hpeer.settings.congr rfl hsz
        hpeer.settings.told)).1
      rw [hsettings.maxAckInAir, hkind, hsocket]
      unfold maxAckInAirOf socketMaxAckInAir socketMaxInAir socketUnacknowledgedLimit
        socketNroAcksToReserve socketAckSize
      unfold minFrameSz at hlimit
      simp only [if_true]
      omega
  refine ⟨?_, ?_⟩
  · exact
      { counts := hcounts
        settings := hsettings
        valid := by rw [hside]; exact hvalid
        acknowledged := by
          rw [hold, hhistory]
          exact (congrArg Connection.bytesAcknowledged hsame).trans h.acknowledged
        within := hwithin
        handshake :=
          { unsent := by
              rw [hsent, hold]
              exact h.handshake.unsent
            unsentBytes := by
              rw [hkind, hsent, hhistory, hbytes]
              exact h.handshake.unsentBytes
            unreceivedBytes := fun hsocket hunreceived => by
              rw [hhistory, hbytes]
              rw [hknown, Bool.or_eq_false_iff] at hunreceived
              exact h.handshake.unreceivedBytes (hkind.symm.trans hsocket)
                hunreceived.1
            sent := by
              rw [hsent, hold, hkind]
              exact h.handshake.sent } }
  · exact
      { counts := hpeercounts
        settings := hpeer.settings.congr rfl hsz hpeer.settings.told
        valid := by rw [hside]; exact hpeervalid
        acknowledged := hpeer.acknowledged
        within := by rw [hcovered]; exact hpeer.within
        handshake :=
          { unsent := fun hunsent => by
              obtain ⟨hacks, hunreceived⟩ := hpeer.handshake.unsent hunsent
              refine ⟨hacks, ?_⟩
              have hack := hacks p hmem
              rw [hknown, hunreceived]
              cases hmessage : p.message with
              | acknowledge told => simp
              | frame size => simp
              | authentication frameSz size =>
                  rw [hmessage] at hack
                  cases hack
            unsentBytes := hpeer.handshake.unsentBytes
            unreceivedBytes := hpeer.handshake.unreceivedBytes
            sent := fun hpeersent => by
              obtain ⟨start, q, rest, frameSz, size, hsplit, hmessage, hsize,
                hstart⟩ := hpeer.handshake.sent hpeersent
              refine ⟨start, q, rest, frameSz, size, hsplit, hmessage, hsize, ?_⟩
              intro hunreceived
              rw [hknown, Bool.or_eq_false_iff] at hunreceived
              have hbefore := hstart hunreceived.1
              have hqsize : q.message.size peer.con.isSocket = size := by
                rw [hmessage]
                rfl
              have hqpos : 0 < q.message.size peer.con.isSocket := by
                refine hpeer.counts.sizes q ?_
                rw [hsplit]
                exact List.mem_append_right _ (List.mem_cons_self ..)
              rw [hmore]
              rw [hplaced] at hsplit
              rcases append_cons_eq_append_cons hsplit with
                ⟨rfl, rfl⟩ | ⟨c, rfl⟩ | ⟨c, rfl⟩
              · -- The authentication message itself is not complete.
                have hpart : n ≠ left := by
                  intro hwhole
                  have hcontra := hunreceived.2
                  rw [hmessage] at hcontra
                  simp [hwhole] at hcontra
                omega
              · rw [List.map_append, List.map_cons, total_append_cons] at hle
                have : (Placed.item peer.con.isSocket q).size = size := hqsize
                omega
              · rw [List.map_append, List.map_cons, total_append_cons]
                have : (Placed.item peer.con.isSocket p).size =
                    p.message.size peer.con.isSocket := rfl
                omega } }

theorem FlowEnd.Bounded.micro (h : e.Bounded P peer) (hpeer : peer.Bounded P e)
    (hstep : FlowEnd.Micro false e peer e') :
    e'.Bounded P peer ∧ peer.Bounded P e' := by
  cases hstep with
  | write accepted => exact h.write hpeer accepted
  | acknowledge hfree hdue =>
      rcases hdue with htimed | ⟨hdue, hroom⟩
      · cases htimed
      · exact h.acknowledge hpeer hfree hdue hroom
  | authentication con size hfree hquiet hpos hsize hsent hfinish =>
      exact h.authentication hpeer hfree hquiet hpos hsize hsent hfinish
  | frame con size hfree hquiet hpos hsent hreceived hfinish =>
      exact h.frame hpeer hfree hquiet hpos hsent hreceived hfinish
  | receive n e' hreceive => exact h.receive hpeer hreceive

/-! ## Runs -/

theorem initialEnd_counts
    (isSocket up up' : Bool) (sz sz' : ℤ) :
    (initialEnd isSocket up sz).Counts (initialEnd isSocket up' sz') :=
  { sameKind := rfl
    bytesSent := rfl
    bytesReceived := rfl
    processedBytes := (Nat.zero_mod _).symm
    buffer := .inr ⟨rfl, rfl⟩
    unsent := le_rfl
    sizes := fun p hp => by cases hp
    stamps := fun p hp => by cases hp
    wire := fun p hp => by cases hp
    received := le_rfl }

def flowLimits (isSocket : Bool) (frameSz : ℕ) (hsz : 0 < frameSz) : Limits where
  window := if isSocket then 44 * frameSz else 200
  limit := if isSocket then 500 else 40
  ackSize := ackSizeOf isSocket
  ackSize_pos := by cases isSocket <;> decide
  ackSize_le_limit := by cases isSocket <;> decide
  ackSize_le_window := by
    cases isSocket with
    | true =>
        show 4 ≤ 44 * frameSz
        omega
    | false =>
        show 3 ≤ 200
        decide

theorem initialEnd_settings
    {isSocket : Bool} (up up' : Bool) {sz sz' : ℤ} {frameSz : ℕ} (hpos : 0 < frameSz)
    (hsz : minFrameSz ≤ sz ∧ sz ≤ maxFrameSz)
    (hmin : (frameSz : ℤ) = min sz sz') :
    (initialEnd isSocket up sz).Settings (flowLimits isSocket frameSz hpos)
      (initialEnd isSocket up' sz') := by
  cases isSocket with
  | true =>
      exact
        { limit := rfl
          limit_eq := rfl
          ackSize := rfl
          window := by
            show ((44 * frameSz : ℕ) : ℤ) = 44 * min sz sz'
            omega
          frameSz := hsz
          serial := fun hserial => by cases hserial
          dstFrameSz := rfl
          maxInAir := rfl
          maxAckInAir := rfl
          told := fun p hp => by cases hp }
  | false =>
      exact
        { limit := rfl
          limit_eq := rfl
          ackSize := rfl
          window := rfl
          frameSz := by
            show minFrameSz ≤ serialFrameSz ∧ serialFrameSz ≤ maxFrameSz
            decide
          serial := fun _ => rfl
          dstFrameSz := rfl
          maxInAir := rfl
          maxAckInAir := rfl
          told := fun p hp => by cases hp }

theorem initialEnd_bounded
    {isSocket : Bool} (up up' : Bool) {sz sz' : ℤ} {frameSz : ℕ} (hpos : 0 < frameSz)
    (hsz : minFrameSz ≤ sz ∧ sz ≤ maxFrameSz)
    (hmin : (frameSz : ℤ) = min sz sz') :
    (initialEnd isSocket up sz).Bounded (flowLimits isSocket frameSz hpos)
      (initialEnd isSocket up' sz') :=
  { counts := initialEnd_counts isSocket up up' sz sz'
    settings := initialEnd_settings up up' hpos hsz hmin
    valid := ⟨.nil, fun item hmem => (by cases hmem), le_rfl⟩
    acknowledged := rfl
    within := by
      show (0 : ℤ) ≤ 0 + (initialConnection isSocket up sz).maxAckInAir
      unfold initialConnection socketMaxAckInAir socketMaxInAir
        socketUnacknowledgedLimit socketNroAcksToReserve socketAckSize
      have hmin' := hsz.1
      unfold minFrameSz at hmin'
      cases isSocket with
      | true =>
          simp only [if_true]
          omega
      | false =>
          simp only [Bool.false_eq_true, if_false]
          decide
    handshake :=
      { unsent := fun _ => ⟨fun p hp => (by cases hp), rfl⟩
        unsentBytes := fun _ _ => by
          show 500 * 0 ≤ _
          omega
        unreceivedBytes := fun _ _ => by
          show 500 * 0 ≤ _
          omega
        sent := fun hsent => by cases hsent } }

def FlowState.Bounded (P : Limits) (s : FlowState) : Prop :=
  s.left.Bounded P s.right ∧ s.right.Bounded P s.left

theorem flow_bounded {s : FlowState}
    (h : TransitionSystem.Reachable FlowStart (FlowStep false) s) :
    ∃ P, s.Bounded P := by
  refine FlowStep.invariant (fun s => ∃ P, s.Bounded P) ?_ ?_ h
  · rintro _ ⟨isSocket, up, up', sz, sz', hsz, hsz', -⟩
    have hmin : minFrameSz ≤ min sz sz' := le_min hsz.1 hsz'.1
    unfold minFrameSz at hmin
    obtain ⟨frameSz, hframeSz⟩ := Int.eq_ofNat_of_zero_le
      (le_trans (by decide : (0 : ℤ) ≤ 96) hmin)
    have hpos : 0 < frameSz := by omega
    exact ⟨flowLimits isSocket frameSz hpos,
      initialEnd_bounded up up' hpos hsz hframeSz.symm,
      initialEnd_bounded up' up hpos hsz' (by rw [min_comm]; exact hframeSz.symm)⟩
  · rintro s t ⟨P, hleft, hright⟩ hstep
    cases hstep with
    | left hmicro =>
        obtain ⟨hown, hpeer⟩ := hleft.micro hright hmicro
        exact ⟨P, hown, hpeer⟩
    | right hmicro =>
        obtain ⟨hown, hpeer⟩ := hright.micro hleft hmicro
        exact ⟨P, hpeer, hown⟩

theorem flow_counts {timed : Bool} {s : FlowState}
    (h : TransitionSystem.Reachable FlowStart (FlowStep timed) s) :
    s.left.Counts s.right ∧ s.right.Counts s.left := by
  refine FlowStep.invariant
    (fun s => s.left.Counts s.right ∧ s.right.Counts s.left) ?_ ?_ h
  · rintro _ ⟨isSocket, up, up', sz, sz', -, -, -⟩
    exact ⟨initialEnd_counts isSocket up up' sz sz',
      initialEnd_counts isSocket up' up sz' sz⟩
  · rintro s t ⟨hleft, hright⟩ hstep
    cases hstep with
    | left hmicro => exact hleft.micro hright hmicro
    | right hmicro => exact (hright.micro hleft hmicro).symm

structure FlowEnd.InAirTold (e peer : FlowEnd) : Prop where
  covered : e.coveredBytes peer ≤ e.sentBytes
  told : e.con.inAir = e.inAirBytes peer % e.con.ackModulus
  exact_iff : e.con.inAir = e.inAirBytes peer ↔
    e.inAirBytes peer < e.con.ackModulus

structure FlowEnd.InAirBounded (e peer : FlowEnd) : Prop where
  exact : e.con.inAir = e.inAirBytes peer
  bound : (e.placedBytes : ℤ) - e.coveredBytes peer ≤ e.con.maxAckInAir
  serial : e.con.isSocket = false →
    (e.placedBytes : ℤ) - e.coveredBytes peer ≤ serialRxBufMinSz - 1

theorem FlowEnd.Counts.told (h : e.Counts peer) (hpeer : peer.Counts e) :
    e.InAirTold peer := by
  have htold := h.inAir_eq hpeer
  have hpos : 0 < e.con.ackModulus := by
    unfold Connection.ackModulus
    cases e.con.isSocket <;> decide
  refine ⟨hpeer.coveredBytes_le, htold, fun hexact => ?_, fun hlt => ?_⟩
  · rw [← hexact, htold]
    exact Nat.mod_lt _ hpos
  · rw [htold]
    exact Nat.mod_eq_of_lt hlt

theorem FlowEnd.Bounded.inAirBounded (h : e.Bounded P peer)
    (hpeer : peer.Bounded P e) : e.InAirBounded peer := by
  have hwithin := h.within
  refine ⟨h.inAir_eq hpeer, by omega, fun hserial => ?_⟩
  have hlimit := (h.settings.maxAckInAir_lt hpeer.settings).2
  rw [hserial] at hlimit
  simp only [Bool.false_eq_true, if_false] at hlimit
  unfold serialRxBufMinSz
  omega

/-- Flow control: in every run the in-air amount is the true number modulo what
acknowledgements can tell, and without keep-alives it is the true number and
the limit holds. -/
theorem flow_control_window {timed : Bool} {s : FlowState}
    (h : TransitionSystem.Reachable FlowStart (FlowStep timed) s) :
    (s.left.InAirTold s.right ∧ s.right.InAirTold s.left) ∧
      (timed = false →
        s.left.InAirBounded s.right ∧ s.right.InAirBounded s.left) := by
  obtain ⟨hleft, hright⟩ := flow_counts h
  refine ⟨⟨hleft.told hright, hright.told hleft⟩, ?_⟩
  rintro rfl
  obtain ⟨P, hleft, hright⟩ := flow_bounded h
  exact ⟨hleft.inAirBounded hright, hright.inAirBounded hleft⟩

def serialEnds : FlowState :=
  ⟨initialEnd false true serialFrameSz, initialEnd false false serialFrameSz⟩

theorem serialEnds_start : FlowStart serialEnds :=
  .mk false true false serialFrameSz serialFrameSz (by decide) (by decide) (.inr rfl)

def greeting : Outgoing := ⟨30, none, by decide, by decide, fun _ h => by cases h⟩

/-- The controller has acknowledged, and has written ten bytes of its
authentication message. -/
def greeted : FlowState :=
  { serialEnds with
    right := serialEnds.right.place (serialEnds.right.con.send greeting 3 10) }

theorem flow_control_window_greeted :
    (greeted.left.InAirTold greeted.right ∧ greeted.right.InAirTold greeted.left) ∧
      (false = false → greeted.left.InAirBounded greeted.right ∧
        greeted.right.InAirBounded greeted.left) :=
  flow_control_window (.next (.start serialEnds_start)
    ⟨.send greeting 3 10, .inr trivial, .inr rfl⟩)

def keptAlive (n : ℕ) : FlowState :=
  { serialEnds with
    left :=
      { con :=
          { serialEnds.left.con with
            bytesSent := 3 * n % 0x100000000
            bytesAcknowledged := if n = 0 then 0xA0A000 else 0 }
        placed := List.replicate n ⟨.acknowledge 0, 0⟩
        received := 0 } }

theorem keptAlive_step (n : ℕ) : FlowStep true (keptAlive n) (keptAlive (n + 1)) := by
  refine ⟨.keepalive 3, .inl rfl, .inl ?_⟩
  have hsum : (3 * n % 0x100000000 + 3) % 0x100000000 =
      3 * (n + 1) % 0x100000000 := by omega
  have hcon : (keptAlive n).left.con.sendAcknowledge 3 =
      ((keptAlive (n + 1)).left.con, [.acknowledge 0]) := by
    show (Connection.mk _ _ _ _ _ _ _ ((3 * n % 0x100000000 + 3) % 0x100000000)
      _ _ _ _ _ _ _ _, _) = _
    rw [hsum]
    rfl
  have hplaced : List.replicate n (⟨.acknowledge 0, 0⟩ : Placed) ++
      [⟨.acknowledge 0, 0⟩] = List.replicate (n + 1) ⟨.acknowledge 0, 0⟩ :=
    List.replicate_succ'.symm
  have hact : (keptAlive n).left.act (keptAlive n).right (.keepalive 3) =
      some (keptAlive (n + 1)).left := by
    show some ((keptAlive n).left.place
      ((keptAlive n).left.con.sendAcknowledge 3)) = _
    rw [hcon]
    exact congrArg (fun placed => some (FlowEnd.mk _ placed 0)) hplaced
  unfold FlowState.stepLeft
  rw [hact]
  rfl

theorem keptAlive_reachable (n : ℕ) :
    TransitionSystem.Reachable FlowStart (FlowStep true) (keptAlive n) := by
  induction n with
  | zero => exact .start serialEnds_start
  | succ n ih => exact ih.next (keptAlive_step n)

theorem keptAlive_placedBytes (n : ℕ) : (keptAlive n).left.placedBytes = 3 * n := by
  induction n with
  | zero => rfl
  | succ n ih =>
      have hplaced : (keptAlive (n + 1)).left.placed =
          (keptAlive n).left.placed ++ [⟨.acknowledge 0, 0⟩] :=
        List.replicate_succ'
      have hhistory : (keptAlive (n + 1)).left.history =
          (keptAlive n).left.history ++ [⟨true, 3, 0⟩] := by
        unfold FlowEnd.history
        rw [hplaced, List.map_append]
        rfl
      unfold FlowEnd.placedBytes at ih ⊢
      rw [hhistory, AcknowledgedWindow.total_append, ih]
      rfl

/-- With 21846 keep-alives in the air 16 bits do not tell their 65538 bytes. -/
theorem flow_control_inexact :
    ¬∀ s, TransitionSystem.Reachable FlowStart (FlowStep true) s →
      s.left.con.inAir = s.left.inAirBytes s.right := by
  intro hall
  have hexact := hall _ (keptAlive_reachable 21846)
  have hbytes : (keptAlive 21846).left.inAirBytes (keptAlive 21846).right = 65538 := by
    have hcovered : (keptAlive 21846).left.coveredBytes (keptAlive 21846).right = 0 :=
      rfl
    unfold FlowEnd.inAirBytes FlowEnd.sentBytes
    rw [hcovered, keptAlive_placedBytes]
    rfl
  rw [hbytes] at hexact
  exact absurd hexact (by decide)

end Iocom
