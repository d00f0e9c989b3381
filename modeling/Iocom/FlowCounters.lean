import Iocom.FlowSteps

/-!
# The counters of flow control

The counters of the code agree with the true numbers of bytes, as far as they
can tell them: `bytes_sent` and `bytes_received` to 32 bits, and what has been
processed to the width of the acknowledgements.
-/

namespace Iocom

open AcknowledgedWindow (Item total covered lastAck)

/-- Bytes which have been sent and are not covered by a received
acknowledgement. -/
def FlowEnd.inAirBytes (e peer : FlowEnd) : ℕ :=
  e.sentBytes - e.coveredBytes peer

structure FlowEnd.Counts (e peer : FlowEnd) : Prop where
  sameKind : peer.con.isSocket = e.con.isSocket
  bytesSent : e.con.bytesSent = e.sentBytes % 0x100000000
  bytesReceived : e.con.bytesReceived = e.received % 0x100000000
  processedBytes : e.con.processedBytes = e.coveredBytes peer % e.con.ackModulus
  buffer : e.con.BufferOk
  unsent : e.con.frameOutUsed - e.con.frameOutPos ≤ e.placedBytes
  sizes : ∀ p ∈ e.placed, 0 < p.message.size e.con.isSocket
  stamps : ∀ p ∈ e.placed, p.received ≤ e.received
  wire : ∀ p ∈ e.placed, ∀ n, p.message = .acknowledge n →
    n = p.received % e.con.ackModulus
  received : e.received ≤ peer.sentBytes

theorem FlowEnd.sentBytes_le (e : FlowEnd) : e.sentBytes ≤ e.placedBytes :=
  Nat.sub_le _ _

theorem FlowEnd.Counts.history_stamps
    {e peer : FlowEnd} (h : e.Counts peer) :
    ∀ item ∈ e.history, item.stamp ≤ e.received := by
  intro item hmem
  obtain ⟨p, hp, rfl⟩ := List.mem_map.mp hmem
  exact h.stamps p hp

theorem FlowEnd.Counts.coveredBytes_le
    {e peer : FlowEnd} (hpeer : peer.Counts e) :
    e.coveredBytes peer ≤ e.sentBytes := by
  have harrived : ∀ items : List Item, ∀ r,
      ∀ item ∈ AcknowledgedWindow.arrived items r, item ∈ items := by
    intro items
    induction items with
    | nil => exact fun r item hmem => hmem
    | cons first items ih =>
        intro r item hmem
        unfold AcknowledgedWindow.arrived at hmem
        split at hmem
        · rcases List.mem_cons.mp hmem with rfl | hmem
          · exact List.mem_cons_self ..
          · exact List.mem_cons_of_mem _ (ih _ item hmem)
        · cases hmem
  have hle : covered peer.history e.received ≤ peer.received :=
    AcknowledgedWindow.lastAck_le fun item hmem =>
      hpeer.history_stamps item (harrived _ _ item hmem)
  exact hle.trans hpeer.received

theorem masked_difference
    {sent covered sent' covered' modulus : ℕ} (hle : covered ≤ sent)
    (hdvd : modulus ∣ 0x100000000) (hsent : sent' % modulus = sent % modulus)
    (hcovered : covered' % modulus = covered % modulus) :
    (((sent' : ℤ) - covered') % 0x100000000 % modulus).toNat =
      (sent - covered) % modulus := by
  have hmod : ((modulus : ℕ) : ℤ) ∣ 0x100000000 := by exact_mod_cast hdvd
  rw [Int.emod_emod_of_dvd _ hmod]
  have hsent' : (sent' : ℤ) ≡ sent [ZMOD modulus] := by
    unfold Int.ModEq
    exact_mod_cast hsent
  have hcovered' : (covered' : ℤ) ≡ covered [ZMOD modulus] := by
    unfold Int.ModEq
    exact_mod_cast hcovered
  rw [hsent'.sub hcovered', ← Nat.cast_sub hle]
  exact_mod_cast rfl

theorem Connection.ackModulus_dvd (con : Connection) :
    con.ackModulus ∣ 0x100000000 := by
  unfold Connection.ackModulus
  cases con.isSocket <;> decide

/-- The in-air amount is the true number of bytes, cut to the width of the
acknowledgements. -/
theorem FlowEnd.Counts.inAir_eq
    {e peer : FlowEnd} (h : e.Counts peer) (hpeer : peer.Counts e) :
    e.con.inAir = e.inAirBytes peer % e.con.ackModulus := by
  unfold Connection.inAir FlowEnd.inAirBytes
  refine masked_difference hpeer.coveredBytes_le e.con.ackModulus_dvd ?_ ?_
  · rw [h.bytesSent, Nat.mod_mod_of_dvd _ e.con.ackModulus_dvd]
  · rw [h.processedBytes, Nat.mod_mod]

theorem FlowEnd.placedBytes_place
    (e : FlowEnd) (con : Connection) (message : FlowMessage)
    (hkind : con.isSocket = e.con.isSocket) :
    (e.place (con, [message])).history =
        e.history ++ [⟨message.isAck, message.size e.con.isSocket, e.received⟩] ∧
      (e.place (con, [message])).placedBytes =
        e.placedBytes + message.size e.con.isSocket := by
  have hhistory : (e.place (con, [message])).history =
      e.history ++ [⟨message.isAck, message.size e.con.isSocket, e.received⟩] := by
    unfold FlowEnd.history FlowEnd.place
    dsimp only
    rw [hkind, List.map_append]
    rfl
  refine ⟨hhistory, ?_⟩
  unfold FlowEnd.placedBytes
  rw [hhistory, AcknowledgedWindow.total_append]

theorem FlowEnd.Counts.place
    {e peer : FlowEnd} (h : e.Counts peer) (hpeer : peer.Counts e)
    {con : Connection} {message : FlowMessage}
    (hfree : e.con.frameOutUsed = 0)
    (hpos : 0 < message.size e.con.isSocket)
    (hwire : ∀ n, message = .acknowledge n → n = e.received % e.con.ackModulus)
    (hcon : con =
      { e.con with
        frameOutUsed := message.size e.con.isSocket
        bytesAcknowledged := con.bytesAcknowledged
        frameOutNr := con.frameOutNr
        authenticationSent := con.authenticationSent }) :
    (e.place (con, [message])).Counts peer ∧
      peer.Counts (e.place (con, [message])) := by
  have hkind : con.isSocket = e.con.isSocket := by rw [hcon]
  have hmodulus : con.ackModulus = e.con.ackModulus := by
    unfold Connection.ackModulus
    rw [hkind]
  obtain ⟨hhistory, hbytes⟩ := e.placedBytes_place con message hkind
  have hpos0 : e.con.frameOutPos = 0 := by
    rcases h.buffer with hlt | ⟨-, hzero⟩
    · omega
    · exact hzero
  have hused : con.frameOutUsed = message.size e.con.isSocket := by rw [hcon]
  have hposition : con.frameOutPos = 0 := by rw [hcon, hpos0]
  have hsame : (e.place (con, [message])).sentBytes = e.sentBytes := by
    unfold FlowEnd.sentBytes
    rw [hbytes, hfree]
    show _ - (con.frameOutUsed - con.frameOutPos) = _
    omega
  have hmem : ∀ p ∈ (e.place (con, [message])).placed,
      p ∈ e.placed ∨ p = ⟨message, e.received⟩ := by
    intro p hp
    rcases List.mem_append.mp hp with hp | hp
    · exact .inl hp
    · exact .inr (List.mem_singleton.mp hp)
  refine ⟨?_, ?_⟩
  · exact
      { sameKind := h.sameKind.trans hkind.symm
        bytesSent := by
          rw [hsame]
          exact (congrArg Connection.bytesSent hcon).trans h.bytesSent
        bytesReceived :=
          (congrArg Connection.bytesReceived hcon).trans h.bytesReceived
        processedBytes := by
          refine (congrArg Connection.processedBytes hcon).trans ?_
          rw [h.processedBytes]
          show _ = e.coveredBytes peer % con.ackModulus
          rw [hmodulus]
        buffer := .inl (by
          show con.frameOutPos < con.frameOutUsed
          omega)
        unsent := by
          rw [hbytes]
          show con.frameOutUsed - con.frameOutPos ≤ _
          omega
        sizes := fun p hp => by
          show 0 < p.message.size con.isSocket
          rw [hkind]
          rcases hmem p hp with hp | rfl
          · exact h.sizes p hp
          · exact hpos
        stamps := fun p hp => by
          rcases hmem p hp with hp | rfl
          · exact h.stamps p hp
          · exact le_rfl
        wire := fun p hp n hn => by
          show n = p.received % con.ackModulus
          rw [hmodulus]
          rcases hmem p hp with hp | rfl
          · exact h.wire p hp n hn
          · exact hwire n hn
        received := h.received }
  · have hcovered : peer.coveredBytes (e.place (con, [message])) =
        peer.coveredBytes e := by
      unfold FlowEnd.coveredBytes
      rw [hhistory]
      refine AcknowledgedWindow.covered_append_of_lt ?_
      have hle := hpeer.received.trans e.sentBytes_le
      unfold FlowEnd.placedBytes at hle
      dsimp only
      omega
    exact
      { sameKind := hkind.trans hpeer.sameKind
        bytesSent := hpeer.bytesSent
        bytesReceived := hpeer.bytesReceived
        processedBytes := by
          rw [hcovered]
          exact hpeer.processedBytes
        buffer := hpeer.buffer
        unsent := hpeer.unsent
        sizes := hpeer.sizes
        stamps := hpeer.stamps
        wire := hpeer.wire
        received := by
          rw [hsame]
          exact hpeer.received }

theorem FlowEnd.Counts.write
    {e peer : FlowEnd} (h : e.Counts peer) (hpeer : peer.Counts e)
    (accepted : ℕ) :
    FlowEnd.Counts { e with con := e.con.writeToStream accepted } peer ∧
      peer.Counts { e with con := e.con.writeToStream accepted } := by
  have hlt : e.con.bytesSent < 0x100000000 := by
    rw [h.bytesSent]
    exact Nat.mod_lt _ (by decide)
  obtain ⟨hbuffer, written, hsent, hunsent⟩ :=
    Connection.writeToStream_spec accepted h.buffer hlt
  have hsame := e.con.writeToStream_same accepted
  generalize e.con.writeToStream accepted = con at hbuffer hsent hunsent hsame ⊢
  have hkind : con.isSocket = e.con.isSocket := by rw [hsame]
  have hmodulus : con.ackModulus = e.con.ackModulus := by
    unfold Connection.ackModulus
    rw [hkind]
  have hhistory : FlowEnd.history { e with con := con } = e.history := by
    unfold FlowEnd.history
    dsimp only
    rw [hkind]
  have hbytes : FlowEnd.placedBytes { e with con := con } = e.placedBytes := by
    unfold FlowEnd.placedBytes
    rw [hhistory]
  have hle := h.unsent
  have hmore : FlowEnd.sentBytes { e with con := con } = e.sentBytes + written := by
    unfold FlowEnd.sentBytes
    rw [hbytes]
    dsimp only
    omega
  have hcovered : peer.coveredBytes { e with con := con } = peer.coveredBytes e := by
    unfold FlowEnd.coveredBytes
    rw [hhistory]
  refine ⟨?_, ?_⟩
  · exact
      { sameKind := h.sameKind.trans hkind.symm
        bytesSent := by
          rw [hmore]
          dsimp only
          rw [hsent, h.bytesSent]
          omega
        bytesReceived :=
          (congrArg Connection.bytesReceived hsame).trans h.bytesReceived
        processedBytes := by
          refine (congrArg Connection.processedBytes hsame).trans ?_
          rw [h.processedBytes]
          show _ = e.coveredBytes peer % con.ackModulus
          rw [hmodulus]
        buffer := hbuffer
        unsent := by
          rw [hbytes]
          dsimp only
          omega
        sizes := fun p hp => by
          dsimp only
          rw [hkind]
          exact h.sizes p hp
        stamps := h.stamps
        wire := fun p hp n hn => by
          dsimp only
          rw [hmodulus]
          exact h.wire p hp n hn
        received := h.received }
  · exact
      { sameKind := hkind.trans hpeer.sameKind
        bytesSent := hpeer.bytesSent
        bytesReceived := hpeer.bytesReceived
        processedBytes := by
          rw [hcovered]
          exact hpeer.processedBytes
        buffer := hpeer.buffer
        unsent := hpeer.unsent
        sizes := hpeer.sizes
        stamps := hpeer.stamps
        wire := hpeer.wire
        received := by
          rw [hmore]
          exact hpeer.received.trans (Nat.le_add_right _ _) }

/-- What is covered after some bytes of a message have been received. -/
theorem covered_received
    {isSocket : Bool} {before after : List Placed} {p : Placed}
    {received left n : ℕ}
    (hsizes : ∀ q ∈ before ++ p :: after, 0 < q.message.size isSocket)
    (hle : total (before.map (Placed.item isSocket)) ≤ received)
    (hleft : received + left = total (before.map (Placed.item isSocket)) +
      p.message.size isSocket) (hpos : 0 < left) (hn : n ≤ left) :
    covered ((before ++ p :: after).map (Placed.item isSocket)) (received + n) =
      if n = left ∧ p.message.isAck = true then p.received
      else covered ((before ++ p :: after).map (Placed.item isSocket)) received := by
  have hsize : (Placed.item isSocket p).size = p.message.size isSocket := rfl
  have hnow : covered ((before ++ p :: after).map (Placed.item isSocket)) received =
      lastAck (before.map (Placed.item isSocket)) := by
    rw [List.map_append, List.map_cons]
    exact AcknowledgedWindow.covered_between hle (by omega)
  rw [hnow]
  by_cases hwhole : n = left
  · have hend : received + n =
        total (before.map (Placed.item isSocket) ++ [Placed.item isSocket p]) := by
      rw [AcknowledgedWindow.total_append]
      omega
    have hsplit : (before ++ p :: after).map (Placed.item isSocket) =
        (before.map (Placed.item isSocket) ++ [Placed.item isSocket p]) ++
          after.map (Placed.item isSocket) := by
      simp
    rw [hsplit, hend, AcknowledgedWindow.covered_end]
    · rw [AcknowledgedWindow.lastAck_append]
      simp only [hwhole, true_and]
      rfl
    · intro item hmem
      obtain ⟨q, hq, rfl⟩ := List.mem_map.mp hmem
      exact hsizes q (List.mem_append_right _ (List.mem_cons_of_mem _ hq))
  · rw [if_neg fun h => hwhole h.1, List.map_append, List.map_cons]
    exact AcknowledgedWindow.covered_between (by omega) (by omega)

/-- Receiving bytes of a message, and handling it once it is complete. -/
theorem FlowEnd.Counts.receive
    {e peer e' : FlowEnd} {n : ℕ} (h : e.Counts peer) (hpeer : peer.Counts e)
    (hreceive : e.receive peer n = some e') :
    e'.Counts peer ∧ peer.Counts e' := by
  rcases FlowEnd.receive_cases hreceive with
    rfl | ⟨before, p, after, left, hplaced, hle, hleft, hpos, hn, hwritten, rfl⟩
  · exact ⟨h, hpeer⟩
  generalize hcon : (let con :=
      { e.con with
        bytesReceived := (e.con.bytesReceived + n) % 0x100000000 }
    if n = left then con.handle p.message else con) = con
  have hsame : con =
      { e.con with
        bytesReceived := (e.con.bytesReceived + n) % 0x100000000
        processedBytes := con.processedBytes
        dstFrameSz := con.dstFrameSz
        maxInAir := con.maxInAir
        maxAckInAir := con.maxAckInAir
        authenticationReceived := con.authenticationReceived } := by
    rw [← hcon]
    dsimp only
    split
    · exact Connection.handle_same _ _
    · rfl
  have hkind : con.isSocket = e.con.isSocket := by rw [hsame]
  have hmodulus : con.ackModulus = e.con.ackModulus := by
    unfold Connection.ackModulus
    rw [hkind]
  have hhistory : FlowEnd.history
      { e with con := con, received := e.received + n } = e.history := by
    unfold FlowEnd.history
    dsimp only
    rw [hkind]
  have hbytes : FlowEnd.placedBytes
      { e with con := con, received := e.received + n } = e.placedBytes := by
    unfold FlowEnd.placedBytes
    rw [hhistory]
  have hused : con.frameOutUsed = e.con.frameOutUsed := by rw [hsame]
  have hposition : con.frameOutPos = e.con.frameOutPos := by rw [hsame]
  have hsent : FlowEnd.sentBytes
      { e with con := con, received := e.received + n } = e.sentBytes := by
    unfold FlowEnd.sentBytes
    rw [hbytes]
    dsimp only
    rw [hused, hposition]
  have hcovered : peer.coveredBytes
      { e with con := con, received := e.received + n } = peer.coveredBytes e := by
    unfold FlowEnd.coveredBytes
    rw [hhistory]
  have hmem : p ∈ peer.placed := by
    rw [hplaced]
    exact List.mem_append_right _ (List.mem_cons_self ..)
  have hnow : covered peer.history (e.received + n) =
      if n = left ∧ p.message.isAck = true then p.received
      else e.coveredBytes peer := by
    have hsizes := hpeer.sizes
    rw [hplaced] at hsizes
    unfold FlowEnd.coveredBytes FlowEnd.history
    rw [hplaced]
    exact covered_received hsizes hle hleft hpos hn
  have hprocessed : con.processedBytes =
      (if n = left ∧ p.message.isAck = true then p.received
        else e.coveredBytes peer) % e.con.ackModulus := by
    rw [← hcon]
    dsimp only
    by_cases hwhole : n = left
    · rw [if_pos hwhole]
      cases hmessage : p.message with
      | acknowledge told =>
          have hwire := hpeer.wire p hmem told hmessage
          have hpeermodulus : peer.con.ackModulus = e.con.ackModulus := by
            unfold Connection.ackModulus
            rw [h.sameKind]
          rw [hpeermodulus] at hwire
          rw [if_pos ⟨hwhole, rfl⟩]
          exact hwire
      | authentication frameSz size =>
          rw [if_neg fun hack => Bool.false_ne_true hack.2, ← h.processedBytes]
          unfold Connection.handle
          dsimp only
          split <;> rfl
      | frame size =>
          rw [if_neg fun hack => Bool.false_ne_true hack.2, ← h.processedBytes]
          rfl
    · rw [if_neg hwhole, if_neg fun hack => hwhole hack.1]
      exact h.processedBytes
  refine ⟨?_, ?_⟩
  · exact
      { sameKind := h.sameKind.trans hkind.symm
        bytesSent := by
          rw [hsent]
          exact (congrArg Connection.bytesSent hsame).trans h.bytesSent
        bytesReceived := by
          refine (congrArg Connection.bytesReceived hsame).trans ?_
          dsimp only
          rw [h.bytesReceived]
          omega
        processedBytes := by
          show con.processedBytes =
            covered peer.history (e.received + n) % con.ackModulus
          rw [hnow, hmodulus]
          exact hprocessed
        buffer := by
          show con.BufferOk
          unfold Connection.BufferOk
          rw [hused, hposition]
          exact h.buffer
        unsent := by
          rw [hbytes]
          dsimp only
          rw [hused, hposition]
          exact h.unsent
        sizes := fun q hq => by
          dsimp only
          rw [hkind]
          exact h.sizes q hq
        stamps := fun q hq => (h.stamps q hq).trans (Nat.le_add_right _ _)
        wire := fun q hq m hm => by
          dsimp only
          rw [hmodulus]
          exact h.wire q hq m hm
        received := hwritten }
  · exact
      { sameKind := hkind.trans hpeer.sameKind
        bytesSent := hpeer.bytesSent
        bytesReceived := hpeer.bytesReceived
        processedBytes := by
          rw [hcovered]
          exact hpeer.processedBytes
        buffer := hpeer.buffer
        unsent := hpeer.unsent
        sizes := hpeer.sizes
        stamps := hpeer.stamps
        wire := hpeer.wire
        received := by
          rw [hsent]
          exact hpeer.received }

theorem FlowEnd.Counts.micro
    {timed : Bool} {e peer e' : FlowEnd} (h : e.Counts peer)
    (hpeer : peer.Counts e) (hstep : FlowEnd.Micro timed e peer e') :
    e'.Counts peer ∧ peer.Counts e' := by
  cases hstep with
  | write accepted => exact h.write hpeer accepted
  | acknowledge hfree hdue =>
      refine h.place hpeer hfree ?_ ?_ rfl
      · show 0 < ackSizeOf e.con.isSocket
        cases e.con.isSocket <;> decide
      · rintro n hn
        obtain rfl := FlowMessage.acknowledge.inj hn
        rw [h.bytesReceived, Nat.mod_mod_of_dvd _ e.con.ackModulus_dvd]
  | authentication con size hfree hquiet hpos hsize hsent hfinish =>
      obtain ⟨-, rfl⟩ := Connection.finishFrame_eq_some hfinish
      exact h.place hpeer hfree hpos (fun n hn => by cases hn) rfl
  | frame con size hfree hquiet hpos hsent hreceived hfinish =>
      obtain ⟨-, rfl⟩ := Connection.finishFrame_eq_some hfinish
      exact h.place hpeer hfree hpos (fun n hn => by cases hn) rfl
  | receive n e' hreceive => exact h.receive hpeer hreceive

end Iocom
