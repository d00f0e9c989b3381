import Iocom.SwitchboxPairs
import Iocom.SwitchboxServing
import Iocom.SwitchboxClientIds
import Iocom.Lib.TransitionSystem

/-!
# The switchbox keeps its clients apart

Both directions of the shared connection are read off the state of the two ends; every
step of the ends is a step of the lanes.
-/

namespace Iocom

open KeyedChannel (Parcel Port openings)

def SwitchboxEntry.waiting (c : SwitchboxEntry) : UInt16 × List UInt8 :=
  (c.clientId, c.incoming.bytes)

def SwitchboxEntry.port (present : SwitchboxEntry → Bool) (c : SwitchboxEntry) :
    UInt16 × List UInt8 × Bool :=
  (c.clientId, c.outgoing.bytes, present c)

theorem SwitchboxShared.readSocket_bytes (t : SwitchboxShared) (stream : List UInt8) (given : ℕ) :
    (t.readSocket stream given).1.incoming.bytes ++ (t.readSocket stream given).2 =
      t.incoming.bytes ++ stream := by
  have hmin : min t.incoming.space (min given t.incoming.space) = min given t.incoming.space := by
    omega
  simp only [SwitchboxShared.readSocket, OsalRingBuf.put, List.take_take]
  rw [List.append_assoc, hmin, List.take_append_drop]

namespace SwitchboxNet

/-- The connections to clients which can be written to. -/
def announced (c : SwitchboxEntry) : Bool := c.newConnectionMsgSent

def linked (_ : SwitchboxEntry) : Bool := true

def downLane (s : SwitchboxNet) : SwitchboxLane where
  total := s.fromClient
  waiting := s.service.list.map SwitchboxEntry.waiting
  bytes := s.socket.incoming.bytes ++ s.down ++ s.service.outgoing.bytes
  missing := s.socket.incomingBytes
  target := s.socket.incomingClientId
  ports := s.socket.list.map (SwitchboxEntry.port linked)
  taken := s.toSocket

def upLane (s : SwitchboxNet) : SwitchboxLane where
  total := s.fromSocket
  waiting := s.socket.list.map SwitchboxEntry.waiting
  bytes := s.service.incoming.bytes ++ s.up ++ s.socket.outgoing.bytes
  missing := s.service.incomingBytes
  target := s.service.incomingClientId
  ports := s.service.list.map (SwitchboxEntry.port announced)
  taken := s.toClient

/-- What every step keeps, while `n` clients have got their ids after `k₀`. -/
structure Keeps (k₀ : UInt16) (n : ℕ) (s : SwitchboxNet) : Prop where
  pair : ∃ d u, SwitchboxPair (Issued k₀ n) s.downLane s.upLane d u
  root : s.root.FirstRound k₀ n
  serviceCapacity : s.service.outgoing.capacity < 0x80000000
  socketCapacity : s.socket.outgoing.capacity < 0x80000000

namespace Keeps

variable {k₀ : UInt16} {n i : ℕ} {s : SwitchboxNet}

/-! ## The clients -/

theorem clientRead (h : s.Keeps k₀ n) (i : ℕ) (data : List UInt8) :
    (s.clientRead i data).Keeps k₀ n := by
  unfold SwitchboxNet.clientRead
  cases hc : s.service.list[i]? with
  | none => exact h
  | some c =>
      obtain ⟨d, u, hpair⟩ := h.pair
      have hi : s.downLane.waiting[i]? = some (c.clientId, c.incoming.bytes) := by
        simp [downLane, hc, SwitchboxEntry.waiting]
      refine ⟨⟨d, u, ?_⟩, h.root, h.serviceCapacity, h.socketCapacity⟩
      have hnew := hpair.clientRead (data.take c.incoming.space) hi
      unfold downLane upLane
      dsimp only
      rw [Registry.map_key_set hc
        (show SwitchboxEntry.port announced { c with incoming := c.incoming.put data } =
          SwitchboxEntry.port announced c from rfl), List.map_set]
      exact hnew

theorem clientWrite (h : s.Keeps k₀ n) (i accepted : ℕ) :
    (s.clientWrite i accepted).Keeps k₀ n := by
  unfold SwitchboxNet.clientWrite
  cases hc : s.service.list[i]? with
  | none => exact h
  | some c =>
      obtain ⟨d, u, hpair⟩ := h.pair
      have hi : s.upLane.ports[i]? = some (c.clientId, c.outgoing.bytes, announced c) := by
        simp [upLane, hc, SwitchboxEntry.port]
      refine ⟨⟨d, u, ?_⟩, h.root, h.serviceCapacity, h.socketCapacity⟩
      have hnew := hpair.clientWrite (n := accepted) hi
      unfold downLane upLane
      dsimp only
      rw [Registry.map_key_set hc
        (show SwitchboxEntry.waiting { c with outgoing := c.outgoing.drop accepted } =
          SwitchboxEntry.waiting c from rfl), List.map_set]
      exact hnew

theorem connect (h : s.Keeps k₀ n) (hn : n < 65535) (capacity : ℕ) :
    ∃ s', s.connect capacity = some s' ∧ s'.Keeps k₀ (n + 1) := by
  obtain ⟨d, u, hpair⟩ := h.pair
  obtain ⟨hnext, hnew⟩ := h.root.next hn
  simp only [SwitchboxNet.connect, hnext, Option.map_some]
  refine ⟨_, rfl, ⟨d, u, ?_⟩, h.root.connect, h.serviceCapacity, h.socketCapacity⟩
  have hconnected := hpair.connect hnew fun j => issued_succ
  unfold downLane upLane
  dsimp only
  rw [List.map_append, List.map_append]
  exact hconnected

theorem connectOther (h : s.Keeps k₀ n) (hn : n < 65535) :
    ∃ s', s.connectOther = some s' ∧ s'.Keeps k₀ (n + 1) := by
  obtain ⟨d, u, hpair⟩ := h.pair
  obtain ⟨hnext, hnew⟩ := h.root.next hn
  simp only [SwitchboxNet.connectOther, hnext, Option.map_some]
  refine ⟨_, rfl, ⟨d, u, ?_⟩, h.root.connect, h.serviceCapacity, h.socketCapacity⟩
  exact
    { hpair with
      fresh := fun j hj => hpair.fresh j fun hold => hj (issued_succ.mpr (.inl hold))
      waiting_issued := fun j hj => issued_succ.mpr (.inl (hpair.waiting_issued j hj))
      ports_issued := fun j hj => issued_succ.mpr (.inl (hpair.ports_issued j hj)) }

theorem releaseOther (h : s.Keeps k₀ n) (clientId : UInt16) :
    ({ s with root := { s.root with con := s.root.con.erase clientId } } : SwitchboxNet).Keeps
      k₀ n :=
  ⟨h.pair, h.root.erase clientId, h.serviceCapacity, h.socketCapacity⟩

/-- A control code which opens nothing is stored for the sockets, if it fits. -/
theorem noteDown (h : s.Keeps k₀ n) (k : UInt16) {code : ℤ}
    (hcode : code = iocSwitchboxConnectionDropped ∨ code = iocSwitchboxKeepalive) :
    ({ s with
        service :=
          { s.service with
            outgoing :=
              (storeMsgHeaderToRingbuf s.service.outgoing k code).getD s.service.outgoing } } :
      SwitchboxNet).Keeps k₀ n := by
  cases hstore : storeMsgHeaderToRingbuf s.service.outgoing k code with
  | none => exact h
  | some outgoing =>
      obtain ⟨d, u, hpair⟩ := h.pair
      obtain ⟨hbytes, hcapacity⟩ := storeMsgHeader_bytes hstore
      refine ⟨⟨d.put (k, code), u, ?_⟩, h.root, ?_, h.socketCapacity⟩
      · have hput := hpair.putDown (k := k) hcode
        unfold downLane at hput ⊢
        dsimp only at hput ⊢
        rw [Option.getD_some, hbytes, ← List.append_assoc]
        exact hput
      · rw [Option.getD_some, hcapacity]
        exact h.serviceCapacity

theorem noteUp (h : s.Keeps k₀ n) (k : UInt16) {code : ℤ}
    (hcode : code = iocSwitchboxConnectionDropped ∨ code = iocSwitchboxKeepalive) :
    ({ s with
        socket :=
          { s.socket with
            outgoing :=
              (storeMsgHeaderToRingbuf s.socket.outgoing k code).getD s.socket.outgoing } } :
      SwitchboxNet).Keeps k₀ n := by
  cases hstore : storeMsgHeaderToRingbuf s.socket.outgoing k code with
  | none => exact h
  | some outgoing =>
      obtain ⟨d, u, hpair⟩ := h.pair
      obtain ⟨hbytes, hcapacity⟩ := storeMsgHeader_bytes hstore
      refine ⟨⟨d, u.put (k, code), ?_⟩, h.root, h.serviceCapacity, ?_⟩
      · have hput := hpair.putUp (k := k) hcode
        unfold upLane at hput ⊢
        dsimp only at hput ⊢
        rw [Option.getD_some, hbytes, ← List.append_assoc]
        exact hput
      · rw [Option.getD_some, hcapacity]
        exact h.socketCapacity

theorem drop (h : s.Keeps k₀ n) (i : ℕ) : (s.drop i).Keeps k₀ n := by
  unfold SwitchboxNet.drop
  cases hc : s.service.list[i]? with
  | none => exact h
  | some c =>
      have hgone : ({ s with
          root := { s.root with con := s.root.con.erase c.clientId }
          service := { s.service with list := s.service.list.eraseIdx i } } :
          SwitchboxNet).Keeps k₀ n := by
        obtain ⟨d, u, hpair⟩ := h.pair
        have hi : s.upLane.ports[i]? = some (c.clientId, c.outgoing.bytes, announced c) := by
          simp [upLane, hc, SwitchboxEntry.port]
        have hlanes : ∃ u, SwitchboxPair (Issued k₀ n)
            { s.downLane with waiting := s.downLane.waiting.eraseIdx i }
            { s.upLane with ports := s.upLane.ports.eraseIdx i } d u := by
          cases hannounced : announced c with
          | true => exact ⟨_, hpair.dropAnnounced (hannounced ▸ hi)⟩
          | false => exact ⟨_, hpair.dropUnannounced (hannounced ▸ hi)⟩
        obtain ⟨u', hpair'⟩ := hlanes
        refine ⟨⟨d, u', ?_⟩, h.root.erase c.clientId, h.serviceCapacity, h.socketCapacity⟩
        unfold downLane upLane at hpair' ⊢
        dsimp only at hpair' ⊢
        rw [← List.eraseIdx_map, ← List.eraseIdx_map]
        exact hpair'
      dsimp only
      split_ifs
      · exact hgone.noteDown c.clientId (.inl rfl)
      · exact hgone

/-! ## The emulated sockets -/

theorem linked_opened {d u : SwitchboxChannel} {c : SwitchboxEntry}
    (hpair : SwitchboxPair (Issued k₀ n) s.downLane s.upLane d u)
    (hc : s.socket.list[i]? = some c) : d.port c.clientId = .opened :=
  (hpair.downward.opened _).mpr ⟨c.outgoing.bytes, List.mem_map_of_mem (List.mem_of_getElem? hc)⟩

theorem socketWrite (h : s.Keeps k₀ n) (i : ℕ) (data : List UInt8) :
    (s.socketWrite i data).Keeps k₀ n := by
  unfold SwitchboxNet.socketWrite
  cases hc : s.socket.list[i]? with
  | none => exact h
  | some c =>
      dsimp only
      split_ifs
      · exact h
      · obtain ⟨d, u, hpair⟩ := h.pair
        have hi : s.upLane.waiting[i]? = some (c.clientId, c.incoming.bytes) := by
          simp [upLane, hc, SwitchboxEntry.waiting]
        refine ⟨⟨d, u, ?_⟩, h.root, h.serviceCapacity, h.socketCapacity⟩
        have hnew := hpair.socketWrite (data.take c.incoming.space) hi
          (linked_opened hpair hc)
        unfold downLane upLane
        dsimp only
        rw [Registry.map_key_set hc
          (show SwitchboxEntry.port linked { c with incoming := c.incoming.put data } =
            SwitchboxEntry.port linked c from rfl), List.map_set]
        exact hnew

theorem socketRead (h : s.Keeps k₀ n) (i count : ℕ) : (s.socketRead i count).Keeps k₀ n := by
  unfold SwitchboxNet.socketRead
  cases hc : s.socket.list[i]? with
  | none => exact h
  | some c =>
      dsimp only
      split_ifs
      · exact h
      · obtain ⟨d, u, hpair⟩ := h.pair
        have hi : s.downLane.ports[i]? = some (c.clientId, c.outgoing.bytes, true) := by
          simp [downLane, hc, SwitchboxEntry.port, linked]
        refine ⟨⟨d, u, ?_⟩, h.root, h.serviceCapacity, h.socketCapacity⟩
        have hnew := hpair.socketRead (n := count) hi
        unfold downLane upLane
        dsimp only
        rw [Registry.map_key_set hc
          (show SwitchboxEntry.waiting { c with outgoing := c.outgoing.drop count } =
            SwitchboxEntry.waiting c from rfl), List.map_set]
        exact hnew

theorem close (h : s.Keeps k₀ n) (i : ℕ) : (s.close i).Keeps k₀ n := by
  obtain ⟨d, u, hpair⟩ := h.pair
  unfold SwitchboxNet.close
  cases hc : s.socket.list[i]? with
  | none =>
      rw [List.eraseIdx_of_length_le (List.getElem?_eq_none_iff.mp hc)]
      exact h
  | some c =>
      have hi : s.downLane.ports[i]? = some (c.clientId, c.outgoing.bytes, true) := by
        simp [downLane, hc, SwitchboxEntry.port, linked]
      refine ⟨⟨d.closePort c.clientId, u, ?_⟩, h.root, h.serviceCapacity, h.socketCapacity⟩
      have hnew := hpair.close hi
      unfold downLane upLane at hnew ⊢
      dsimp only at hnew ⊢
      rw [← List.eraseIdx_map, ← List.eraseIdx_map]
      exact hnew

/-! ## The streams -/

theorem serviceRead (h : s.Keeps k₀ n) (given : ℕ) :
    ({ s with
        service := (s.service.readSocket s.up given).1
        up := (s.service.readSocket s.up given).2 } : SwitchboxNet).Keeps k₀ n := by
  obtain ⟨d, u, hpair⟩ := h.pair
  refine ⟨⟨d, u, ?_⟩, h.root, h.serviceCapacity, h.socketCapacity⟩
  have hup : upLane { s with
      service := (s.service.readSocket s.up given).1
      up := (s.service.readSocket s.up given).2 } = s.upLane := by
    unfold upLane
    dsimp only
    rw [SwitchboxShared.readSocket_bytes]
    rfl
  rw [hup]
  exact hpair

theorem sharedRead (h : s.Keeps k₀ n) (given : ℕ) :
    ({ s with
        socket := (s.socket.readSocket s.down given).1
        down := (s.socket.readSocket s.down given).2 } : SwitchboxNet).Keeps k₀ n := by
  obtain ⟨d, u, hpair⟩ := h.pair
  refine ⟨⟨d, u, ?_⟩, h.root, h.serviceCapacity, h.socketCapacity⟩
  have hdown : downLane { s with
      socket := (s.socket.readSocket s.down given).1
      down := (s.socket.readSocket s.down given).2 } = s.downLane := by
    unfold downLane
    dsimp only
    rw [SwitchboxShared.readSocket_bytes]
    rfl
  rw [hdown]
  exact hpair

theorem serviceWrite (h : s.Keeps k₀ n) (accepted : ℕ) :
    ({ s with
        service := (s.service.writeSocket accepted).1
        down := s.down ++ (s.service.writeSocket accepted).2 } : SwitchboxNet).Keeps k₀ n := by
  obtain ⟨d, u, hpair⟩ := h.pair
  refine ⟨⟨d, u, ?_⟩, h.root, h.serviceCapacity, h.socketCapacity⟩
  have hdown : downLane { s with
      service := (s.service.writeSocket accepted).1
      down := s.down ++ (s.service.writeSocket accepted).2 } = s.downLane := by
    unfold downLane SwitchboxShared.writeSocket
    simp [OsalRingBuf.drop]
  rw [hdown]
  exact hpair

theorem sharedWrite (h : s.Keeps k₀ n) (accepted : ℕ) :
    ({ s with
        socket := (s.socket.writeSocket accepted).1
        up := s.up ++ (s.socket.writeSocket accepted).2 } : SwitchboxNet).Keeps k₀ n := by
  obtain ⟨d, u, hpair⟩ := h.pair
  refine ⟨⟨d, u, ?_⟩, h.root, h.serviceCapacity, h.socketCapacity⟩
  have hup : upLane { s with
      socket := (s.socket.writeSocket accepted).1
      up := s.up ++ (s.socket.writeSocket accepted).2 } = s.upLane := by
    unfold upLane SwitchboxShared.writeSocket
    simp [OsalRingBuf.drop]
  rw [hup]
  exact hpair

/-! ## What is sent -/

theorem announceAt (h : s.Keeps k₀ n) (i : ℕ) :
    ({ s with service := s.service.announceAt i } : SwitchboxNet).Keeps k₀ n := by
  rcases SwitchboxShared.announceAt_spec (s := s.service) (i := i) with
    hsame | ⟨c, outgoing, hc, hsent, hcapacity, hbytes, hturn⟩
  · rw [hsame]
    exact h
  · obtain ⟨d, u, hpair⟩ := h.pair
    have hi : s.upLane.ports[i]? = some (c.clientId, c.outgoing.bytes, false) := by
      simp [upLane, hc, SwitchboxEntry.port, announced, hsent]
    rw [hturn]
    refine ⟨⟨d.announce c.clientId, u.openPort c.clientId, ?_⟩, h.root,
      hcapacity ▸ h.serviceCapacity, h.socketCapacity⟩
    have hnew := hpair.announce hi
    unfold downLane upLane at hnew ⊢
    dsimp only at hnew ⊢
    rw [Registry.map_key_set hc
      (show SwitchboxEntry.waiting { c with newConnectionMsgSent := true } =
        SwitchboxEntry.waiting c from rfl), List.map_set, hbytes,
      ← List.append_assoc]
    exact hnew

theorem serveAtService (h : s.Keeps k₀ n) (i : ℕ)
    (hspace : sboxHdrSize + 1 ≤ s.service.outgoing.space) :
    ({ s with service := s.service.serveAt SwitchboxClient.newConnectionMsgSent i } :
      SwitchboxNet).Keeps k₀ n := by
  rcases SwitchboxShared.serveAt_spec SwitchboxClient.newConnectionMsgSent
    (i := i) hspace with
    hsame | ⟨c, count, outgoing, hc, hready, hpos, hle, hmax, hcapacity, hbytes, hturn⟩
  · rw [hsame]
    exact h
  · obtain ⟨d, u, hpair⟩ := h.pair
    have hi : s.downLane.waiting[i]? = some (c.clientId, c.incoming.bytes) := by
      simp [downLane, hc, SwitchboxEntry.waiting]
    have hport : (c.clientId, c.outgoing.bytes, true) ∈ s.upLane.ports :=
      List.mem_map.mpr ⟨c, List.mem_of_getElem? hc, by
        rw [SwitchboxEntry.port, announced, hready]⟩
    rw [hturn]
    refine ⟨⟨d.send c.clientId (c.incoming.bytes.take count), u, ?_⟩, h.root,
      hcapacity ▸ h.serviceCapacity, h.socketCapacity⟩
    have hnew := hpair.serveClient hi hpos hle (hmax.trans_lt h.serviceCapacity)
      ((hpair.upward.opened _).mpr ⟨_, hport⟩)
    unfold downLane upLane at hnew ⊢
    dsimp only at hnew ⊢
    rw [Registry.map_key_set hc
      (show SwitchboxEntry.port announced { c with incoming := c.incoming.drop count } =
        SwitchboxEntry.port announced c from rfl), List.map_set, hbytes,
      ← List.append_assoc]
    exact hnew

theorem serveAtSocket (h : s.Keeps k₀ n) (i : ℕ)
    (hspace : sboxHdrSize + 1 ≤ s.socket.outgoing.space) :
    ({ s with socket := s.socket.serveAt (fun _ => true) i } : SwitchboxNet).Keeps k₀ n := by
  rcases SwitchboxShared.serveAt_spec (fun _ => true) (i := i) hspace with
    hsame | ⟨c, count, outgoing, hc, -, hpos, hle, hmax, hcapacity, hbytes, hturn⟩
  · rw [hsame]
    exact h
  · obtain ⟨d, u, hpair⟩ := h.pair
    have hi : s.upLane.waiting[i]? = some (c.clientId, c.incoming.bytes) := by
      simp [upLane, hc, SwitchboxEntry.waiting]
    rw [hturn]
    refine ⟨⟨d, u.send c.clientId (c.incoming.bytes.take count), ?_⟩, h.root,
      h.serviceCapacity, hcapacity ▸ h.socketCapacity⟩
    have hnew := hpair.serveSocket hi hpos hle (hmax.trans_lt h.socketCapacity)
      (linked_opened hpair hc)
    unfold downLane upLane at hnew ⊢
    dsimp only at hnew ⊢
    rw [Registry.map_key_set hc
      (show SwitchboxEntry.port linked { c with incoming := c.incoming.drop count } =
        SwitchboxEntry.port linked c from rfl), List.map_set, hbytes,
      ← List.append_assoc]
    exact hnew

theorem keepAliveService (h : s.Keeps k₀ n) (idle : Bool) :
    ({ s with service := s.service.keepAlive idle } : SwitchboxNet).Keeps k₀ n := by
  unfold SwitchboxShared.keepAlive
  split_ifs
  · exact h.noteDown 0 (.inr rfl)
  · exact h

theorem keepAliveSocket (h : s.Keeps k₀ n) (idle : Bool) :
    ({ s with socket := s.socket.keepAlive idle } : SwitchboxNet).Keeps k₀ n := by
  unfold SwitchboxShared.keepAlive
  split_ifs
  · exact h.noteUp 0 (.inr rfl)
  · exact h

/-! ## What is received -/

theorem drop_bytes_append {r : OsalRingBuf} {count : ℕ} (h : count ≤ r.bytes.length)
    (stream behind : List UInt8) : (r.drop count).bytes ++ stream ++ behind =
      (r.bytes ++ stream ++ behind).drop count := by
  rw [List.append_assoc, List.append_assoc, List.drop_append_of_le_length h]
  rfl

theorem map_views {f : SwitchboxEntry → SwitchboxEntry} {present : SwitchboxEntry → Bool}
    (hclient : ∀ c, (f c).toSwitchboxClient = c.toSwitchboxClient)
    (houtgoing : ∀ c, (f c).outgoing = c.outgoing) (hpresent : ∀ c, present (f c) = present c)
    (list : List SwitchboxEntry) :
    (list.map f).map SwitchboxEntry.waiting = list.map SwitchboxEntry.waiting ∧
      (list.map f).map (SwitchboxEntry.port present) = list.map (SwitchboxEntry.port present) := by
  rw [List.map_map, List.map_map]
  constructor <;> refine List.map_congr_left fun c _ => ?_
  · simp only [Function.comp, SwitchboxEntry.waiting, hclient]
  · simp only [Function.comp, SwitchboxEntry.port, hclient, houtgoing, hpresent]

theorem serviceControl_views (t : SwitchboxShared) (k : UInt16) (code : ℤ) :
    ∃ list, (t.serviceControl k code).1 = { t with list := list } ∧
      list.map SwitchboxEntry.waiting = t.list.map SwitchboxEntry.waiting ∧
      list.map (SwitchboxEntry.port announced) = t.list.map (SwitchboxEntry.port announced) := by
  unfold SwitchboxShared.serviceControl
  by_cases hcode : code = iocSwitchboxConnectionDropped
  · rw [if_pos hcode]
    exact ⟨_, rfl, map_views (fun c => by split_ifs <;> rfl) (fun c => by split_ifs <;> rfl)
      (fun c => by split_ifs <;> rfl) t.list⟩
  · rw [if_neg hcode]
    exact ⟨t.list, rfl, rfl, rfl⟩

theorem socketControl_views (t : SwitchboxShared) (k : UInt16) {code : ℤ}
    (hcode : code ≠ iocSwitchboxNewConnection) :
    ∃ list, t.socketControl k code = ({ t with list := list }, none) ∧
      list.map SwitchboxEntry.waiting = t.list.map SwitchboxEntry.waiting ∧
      list.map (SwitchboxEntry.port linked) = t.list.map (SwitchboxEntry.port linked) := by
  unfold SwitchboxShared.socketControl
  rw [if_neg hcode]
  by_cases hdropped : code = iocSwitchboxConnectionDropped
  · rw [if_pos hdropped]
    exact ⟨_, rfl, map_views (fun c => by split_ifs <;> rfl) (fun c => by split_ifs <;> rfl)
      (fun c => by split_ifs <;> rfl) t.list⟩
  · rw [if_neg hdropped]
    exact ⟨t.list, rfl, rfl, rfl⟩

theorem takeServiceHeader (h : s.Keeps k₀ n) :
    ({ s with service := (s.service.takeHeader SwitchboxShared.serviceControl).1 } :
      SwitchboxNet).Keeps k₀ n := by
  unfold SwitchboxShared.takeHeader
  split_ifs with hmissing
  · exact h
  rw [not_not] at hmissing
  obtain ⟨d, u, hpair⟩ := h.pair
  have hbytes : s.upLane.bytes =
      s.service.incoming.bytes ++ (s.up ++ s.socket.outgoing.bytes) := List.append_assoc _ _ _
  rcases hpair.upward.nextHeader hbytes hmissing with hnone | ⟨p, queue, hqueue, hsize, hheader⟩
  · rw [hnone]
    exact h
  have hdrop : (s.service.incoming.drop sboxHdrSize).bytes ++ s.up ++ s.socket.outgoing.bytes =
      s.upLane.bytes.drop sboxHdrSize := drop_bytes_append hsize _ _
  rw [hheader]
  dsimp only
  cases p with
  | content k data =>
      have hpos : 0 < data.length :=
        (hpair.upward.sendable (.content k data) (hqueue ▸ List.mem_cons_self ..)).1
      have hnew := hpair.takeContentUp hmissing hqueue
      rw [← hdrop] at hnew
      simp only [SwitchboxLane.Represents.header, Int.natCast_pos, hpos, if_true]
      exact ⟨⟨d, u.take, hnew⟩, h.root, h.serviceCapacity, h.socketCapacity⟩
  | opening k => exact absurd hqueue hpair.queueUp_ne
  | note m =>
      have hcode : m.2 = iocSwitchboxConnectionDropped ∨ m.2 = iocSwitchboxKeepalive :=
        hpair.upward.sendable (.note m) (hqueue ▸ List.mem_cons_self ..)
      have hneg : ¬0 < m.2 := by
        rcases hcode with hcode | hcode <;>
          simp [hcode, iocSwitchboxConnectionDropped, iocSwitchboxKeepalive]
      have hnew := hpair.takeNoteUp hmissing hqueue
      obtain ⟨list, hcontrol, hwaiting, hports⟩ := serviceControl_views
        { s.service with incoming := s.service.incoming.drop sboxHdrSize } m.1 m.2
      simp only [SwitchboxLane.Represents.header, hneg, if_false]
      rw [hcontrol]
      refine ⟨⟨d, u.take, ?_⟩, h.root, h.serviceCapacity, h.socketCapacity⟩
      unfold downLane upLane
      dsimp only
      rw [hwaiting, hports, hdrop]
      exact hnew

theorem moveDataService (h : s.Keeps k₀ n) {skipData : OsalRingBuf → ℕ → OsalRingBuf}
    (hskip : ∀ r n, n ≤ r.bytes.length → skipData r n = r.drop n) :
    ({ s with service := s.service.moveData skipData fun c => c.newConnectionMsgSent } :
      SwitchboxNet).Keeps k₀ n := by
  rcases SwitchboxShared.moveData_spec hskip (fun c => c.newConnectionMsgSent) s.service with
    hsame | ⟨count, hmissing, hlength, hpos, hmoved⟩
  · rw [hsame]
    exact h
  obtain ⟨d, u, hpair⟩ := h.pair
  have htake : s.upLane.bytes.take count = s.service.incoming.bytes.take count := by
    unfold upLane
    rw [List.append_assoc, List.take_append_of_le_length hlength]
  have hdrop : (s.service.incoming.drop count).bytes ++ s.up ++ s.socket.outgoing.bytes =
      s.upLane.bytes.drop count := drop_bytes_append hlength _ _
  rcases hmoved with ⟨i, c, outgoing, hc, hpresent, hid, hbytes, heq⟩ | ⟨habsent, heq⟩
  · rw [heq]
    have hi : s.upLane.ports[i]? = some (s.upLane.target, c.outgoing.bytes, true) := by
      simp only [upLane, List.getElem?_map, hc, Option.map_some, SwitchboxEntry.port, announced,
        hpresent, hid]
    refine ⟨⟨d, u.deliver count, ?_⟩, h.root, h.serviceCapacity, h.socketCapacity⟩
    have hnew := hpair.deliverUp hmissing hpos hi
    rw [← hdrop, htake, ← hbytes] at hnew
    unfold downLane upLane at hnew ⊢
    dsimp only at hnew ⊢
    rw [Registry.map_key_set hc
      (show SwitchboxEntry.waiting { c with outgoing := outgoing } =
        SwitchboxEntry.waiting c from rfl), List.map_set, SwitchboxEntry.port, announced,
      hpresent, hid]
    exact hnew
  · have hgone : ({ s with
        service :=
          { s.service with
            incoming := s.service.incoming.drop count
            incomingBytes := s.service.incomingBytes - count } } : SwitchboxNet).Keeps k₀ n := by
      have hports : ∀ w, (s.upLane.target, w, true) ∉ s.upLane.ports := by
        intro w hmem
        obtain ⟨c, hc, hport⟩ := List.mem_map.mp hmem
        simp only [SwitchboxEntry.port, Prod.mk.injEq] at hport
        exact habsent c hc hport.2.2 hport.1
      have hnew := hpair.skipUp hmissing hpos hports
      rw [← hdrop] at hnew
      exact ⟨⟨d, u.deliver count, hnew⟩, h.root, h.serviceCapacity, h.socketCapacity⟩
    rw [heq]
    split_ifs
    · exact hgone.noteDown s.service.incomingClientId (.inl rfl)
    · exact hgone

/-- A header from the switchbox, and the socket for a new connection. -/
theorem takeSocketHeader (h : s.Keeps k₀ n) (capacity : Option ℕ) :
    ({ s with
        socket := link (s.socket.takeHeader SwitchboxShared.socketControl).1
          (s.socket.takeHeader SwitchboxShared.socketControl).2 capacity } :
      SwitchboxNet).Keeps k₀ n := by
  unfold SwitchboxShared.takeHeader
  split_ifs with hmissing
  · exact h
  rw [not_not] at hmissing
  obtain ⟨d, u, hpair⟩ := h.pair
  have hbytes : s.downLane.bytes =
      s.socket.incoming.bytes ++ (s.down ++ s.service.outgoing.bytes) := List.append_assoc _ _ _
  rcases hpair.downward.nextHeader hbytes hmissing with
    hnone | ⟨p, queue, hqueue, hsize, hheader⟩
  · rw [hnone]
    exact h
  have hdrop : (s.socket.incoming.drop sboxHdrSize).bytes ++ s.down ++ s.service.outgoing.bytes =
      s.downLane.bytes.drop sboxHdrSize := drop_bytes_append hsize _ _
  rw [hheader]
  dsimp only
  cases p with
  | content k data =>
      have hpos : 0 < data.length :=
        (hpair.downward.sendable (.content k data) (hqueue ▸ List.mem_cons_self ..)).1
      have hnew := hpair.takeContentDown hmissing hqueue
      rw [← hdrop] at hnew
      simp only [SwitchboxLane.Represents.header, Int.natCast_pos, hpos, if_true]
      exact ⟨⟨d.take, u, hnew⟩, h.root, h.serviceCapacity, h.socketCapacity⟩
  | opening k =>
      have hneg : ¬0 < iocSwitchboxNewConnection := by decide
      simp only [SwitchboxLane.Represents.header, hneg, if_false, SwitchboxShared.socketControl,
        if_true]
      cases capacity with
      | none =>
          have hnew := hpair.takeOpeningLost hmissing hqueue
          rw [← hdrop] at hnew
          exact ⟨⟨d.take.closePort k, u, hnew⟩, h.root, h.serviceCapacity, h.socketCapacity⟩
      | some capacity =>
          have hk : d.port k = .unopened :=
            hpair.downward.consistent.fresh k (by rw [hqueue]; exact List.mem_cons_self ..)
          have habsent : ∀ c ∈ s.socket.list, c.clientId ≠ k := by
            rintro c hc rfl
            obtain ⟨i, hi, rfl⟩ := List.getElem_of_mem hc
            rw [linked_opened hpair (List.getElem?_eq_getElem hi)] at hk
            cases hk
          have hnew := hpair.takeOpening hmissing hqueue
            (by simpa [downLane, SwitchboxEntry.port] using habsent)
            (by simpa [upLane, SwitchboxEntry.waiting] using habsent)
          rw [← hdrop] at hnew
          refine ⟨⟨d.take, u, ?_⟩, h.root, h.serviceCapacity, h.socketCapacity⟩
          unfold downLane upLane at hnew ⊢
          dsimp only [link] at hnew ⊢
          rw [List.map_append, List.map_append]
          exact hnew
  | note m =>
      have hcode : m.2 = iocSwitchboxConnectionDropped ∨ m.2 = iocSwitchboxKeepalive :=
        hpair.downward.sendable (.note m) (hqueue ▸ List.mem_cons_self ..)
      have hneg : ¬0 < m.2 := by
        rcases hcode with hcode | hcode <;>
          simp [hcode, iocSwitchboxConnectionDropped, iocSwitchboxKeepalive]
      have hopens : m.2 ≠ iocSwitchboxNewConnection := by
        rcases hcode with hcode | hcode <;>
          simp [hcode, iocSwitchboxConnectionDropped, iocSwitchboxKeepalive,
            iocSwitchboxNewConnection]
      have hnew := hpair.takeNoteDown hmissing hqueue
      obtain ⟨list, hcontrol, hwaiting, hports⟩ := socketControl_views
        { s.socket with incoming := s.socket.incoming.drop sboxHdrSize } m.1 hopens
      simp only [SwitchboxLane.Represents.header, hneg, if_false]
      rw [hcontrol]
      refine ⟨⟨d.take, u, ?_⟩, h.root, h.serviceCapacity, h.socketCapacity⟩
      unfold downLane upLane
      dsimp only [link]
      rw [hwaiting, hports, hdrop]
      exact hnew

theorem moveDataSocket (h : s.Keeps k₀ n) {skipData : OsalRingBuf → ℕ → OsalRingBuf}
    (hskip : ∀ r n, n ≤ r.bytes.length → skipData r n = r.drop n) :
    ({ s with socket := s.socket.moveData skipData fun _ => true } : SwitchboxNet).Keeps k₀ n := by
  rcases SwitchboxShared.moveData_spec hskip (fun _ => true) s.socket with
    hsame | ⟨count, hmissing, hlength, hpos, hmoved⟩
  · rw [hsame]
    exact h
  obtain ⟨d, u, hpair⟩ := h.pair
  have htake : s.downLane.bytes.take count = s.socket.incoming.bytes.take count := by
    unfold downLane
    rw [List.append_assoc, List.take_append_of_le_length hlength]
  have hdrop : (s.socket.incoming.drop count).bytes ++ s.down ++ s.service.outgoing.bytes =
      s.downLane.bytes.drop count := drop_bytes_append hlength _ _
  rcases hmoved with ⟨i, c, outgoing, hc, -, hid, hbytes, heq⟩ | ⟨habsent, heq⟩
  · rw [heq]
    have hi : s.downLane.ports[i]? = some (s.downLane.target, c.outgoing.bytes, true) := by
      simp only [downLane, List.getElem?_map, hc, Option.map_some, SwitchboxEntry.port, linked, hid]
    refine ⟨⟨d.deliver count, u, ?_⟩, h.root, h.serviceCapacity, h.socketCapacity⟩
    have hnew := hpair.deliverDown (hpair.downward.deliver hmissing hpos hi)
    rw [← hdrop, htake, ← hbytes] at hnew
    unfold downLane upLane at hnew ⊢
    dsimp only at hnew ⊢
    rw [Registry.map_key_set hc
      (show SwitchboxEntry.waiting { c with outgoing := outgoing } =
        SwitchboxEntry.waiting c from rfl), List.map_set, SwitchboxEntry.port, linked, hid]
    exact hnew
  · have hgone : ({ s with
        socket :=
          { s.socket with
            incoming := s.socket.incoming.drop count
            incomingBytes := s.socket.incomingBytes - count } } : SwitchboxNet).Keeps k₀ n := by
      have hports : ∀ w, (s.downLane.target, w, true) ∉ s.downLane.ports := by
        intro w hmem
        obtain ⟨c, hc, hport⟩ := List.mem_map.mp hmem
        simp only [SwitchboxEntry.port, Prod.mk.injEq] at hport
        exact habsent c hc rfl hport.1
      have hnew := hpair.deliverDown (hpair.downward.skip hmissing hpos hports)
      rw [← hdrop] at hnew
      exact ⟨⟨d.deliver count, u, hnew⟩, h.root, h.serviceCapacity, h.socketCapacity⟩
    rw [heq]
    split_ifs
    · exact hgone.noteUp s.socket.incomingClientId (.inl rfl)
    · exact hgone

/-! ## The runs of both ends -/

theorem serveClients (h : s.Keeps k₀ n) {served : SwitchboxShared}
    (hserve : s.service.serve selectConnection moveToService = some served) :
    ({ s with service := served } : SwitchboxNet).Keeps k₀ n := by
  have hselect := SwitchboxShared.selectConnection_keeps (s := s.service)
    (Q := fun service => ({ s with service := service } : SwitchboxNet).Keeps k₀ n)
    (fun t i ht => ht.announceAt i) h
  exact SwitchboxShared.serve_keeps
    (Q := fun service => ({ s with service := service } : SwitchboxNet).Keeps k₀ n)
    (fun t ix ht => ⟨ht.pair, ht.root, ht.serviceCapacity, ht.socketCapacity⟩)
    hselect.1 hselect.2 (fun t i ht hspace => ht.serveAtService i hspace) hserve

theorem serviceRun (h : s.Keeps k₀ n) {skipData : OsalRingBuf → ℕ → OsalRingBuf}
    (hskip : ∀ r n, n ≤ r.bytes.length → skipData r n = r.drop n) {idle : Bool}
    {service : SwitchboxShared} (hrun : s.service.serviceConRun skipData idle = some service) :
    ({ s with service := service } : SwitchboxNet).Keeps k₀ n := by
  obtain ⟨served, hserve, rfl⟩ := Option.map_eq_some_iff.mp hrun
  exact ((h.serveClients hserve).takeServiceHeader.moveDataService hskip).keepAliveService idle

theorem serveSockets (h : s.Keeps k₀ n) {served : SwitchboxShared}
    (hserve : s.socket.serve selectIndividualSocket moveToSharedSocket = some served) :
    ({ s with socket := served } : SwitchboxNet).Keeps k₀ n :=
  SwitchboxShared.serve_keeps
    (Q := fun socket => ({ s with socket := socket } : SwitchboxNet).Keeps k₀ n)
    (fun t ix ht => ⟨ht.pair, ht.root, ht.serviceCapacity, ht.socketCapacity⟩)
    (by simp [selectIndividualSocket, SwitchboxShared.server])
    (by
      rw [show (selectIndividualSocket s.socket.server).1.clients =
        s.socket.list.map SwitchboxEntry.toSwitchboxClient from rfl,
        show (selectIndividualSocket s.socket.server).1.outgoing = s.socket.outgoing from rfl,
        SwitchboxShared.withClients_self]
      exact h)
    (fun t i ht hspace => ht.serveAtSocket i hspace) hserve

theorem link_none (t : SwitchboxShared) (capacity : Option ℕ) : link t none capacity = t := by
  cases capacity <;> rfl

theorem link_nowhere (t : SwitchboxShared) (newsocket : Option UInt16) :
    link t newsocket none = t := by
  cases newsocket <;> rfl

/-- A socket is made when the header has been taken, or when the run is over: that makes
no difference. -/
theorem link_keepAlive (t : SwitchboxShared) (newsocket : Option UInt16) (capacity : Option ℕ)
    (idle : Bool) : link (t.keepAlive idle) newsocket capacity =
      (link t newsocket capacity).keepAlive idle := by
  unfold link SwitchboxShared.keepAlive
  cases newsocket with
  | none => rfl
  | some k =>
      cases capacity with
      | none => rfl
      | some capacity =>
          dsimp only
          split_ifs <;> rfl

theorem newsocket_missing {t : SwitchboxShared} {k : UInt16}
    (h : (t.takeHeader SwitchboxShared.socketControl).2 = some k) :
    (t.takeHeader SwitchboxShared.socketControl).1.incomingBytes = 0 := by
  unfold SwitchboxShared.takeHeader at h ⊢
  split_ifs at h ⊢ with hmissing
  rw [not_not] at hmissing
  cases hheader : getMsgHeaderFromRingbuf t.incoming with
  | none =>
      rw [hheader] at h
      cases h
  | some header =>
      obtain ⟨clientId, bytes, incoming⟩ := header
      rw [hheader] at h
      dsimp only at h ⊢
      split_ifs at h ⊢
      unfold SwitchboxShared.socketControl
      split_ifs <;> exact hmissing

theorem sharedRun (h : s.Keeps k₀ n) {skipData : OsalRingBuf → ℕ → OsalRingBuf}
    (hskip : ∀ r n, n ≤ r.bytes.length → skipData r n = r.drop n) {idle malloc : Bool}
    {socket : SwitchboxShared} {newsocket : Option UInt16} (capacity : Option ℕ)
    (hrun : s.socket.runSharedSocket skipData idle malloc = some (socket, newsocket)) :
    ({ s with socket := link socket newsocket capacity } : SwitchboxNet).Keeps k₀ n := by
  obtain ⟨served, hserve, hpair⟩ := Option.map_eq_some_iff.mp hrun
  have hheader := (h.serveSockets hserve).takeSocketHeader
  have hmissing := fun k => newsocket_missing (t := served) (k := k)
  generalize served.takeHeader SwitchboxShared.socketControl = taken at hpair hheader hmissing
  obtain ⟨t, taken⟩ := taken
  dsimp only at hpair hheader hmissing
  split_ifs at hpair
  · obtain ⟨rfl, rfl⟩ := Prod.mk.inj hpair
    have hlost := hheader none
    rw [link_nowhere] at hlost
    rwa [link_none]
  obtain ⟨rfl, rfl⟩ := Prod.mk.inj hpair
  have hlinked := hheader capacity
  rw [link_keepAlive]
  cases taken with
  | none =>
      rw [link_none] at hlinked ⊢
      exact (hlinked.moveDataSocket hskip).keepAliveSocket idle
  | some k =>
      have hsame : t.moveData skipData (fun _ => true) = t := by
        rw [SwitchboxShared.moveData, if_pos (hmissing k rfl)]
      rw [hsame]
      exact hlinked.keepAliveSocket idle

end Keeps

/-! ## Runs -/

end SwitchboxNet

def SwitchboxAction.connects : SwitchboxAction → ℕ
  | .connect _ | .connectOther => 1
  | _ => 0

namespace SwitchboxNet

namespace Keeps

variable {k₀ : UInt16} {n : ℕ} {s : SwitchboxNet} {skipData : OsalRingBuf → ℕ → OsalRingBuf}

theorem step (h : s.Keeps k₀ n)
    (hskip : ∀ r n, n ≤ r.bytes.length → skipData r n = r.drop n) {action : SwitchboxAction}
    (hn : n + action.connects ≤ 65535) {s' : SwitchboxNet}
    (hstep : s.step skipData action = some s') : s'.Keeps k₀ (n + action.connects) := by
  cases action with
  | connect capacity =>
      obtain ⟨t, ht, hkeeps⟩ := h.connect (Nat.lt_of_succ_le hn) capacity
      rw [SwitchboxNet.step, ht] at hstep
      exact Option.some.inj hstep ▸ hkeeps
  | connectOther =>
      obtain ⟨t, ht, hkeeps⟩ := h.connectOther (Nat.lt_of_succ_le hn)
      rw [SwitchboxNet.step, ht] at hstep
      exact Option.some.inj hstep ▸ hkeeps
  | releaseOther clientId => exact Option.some.inj hstep ▸ h.releaseOther clientId
  | clientRead i data => exact Option.some.inj hstep ▸ h.clientRead i data
  | clientWrite i accepted => exact Option.some.inj hstep ▸ h.clientWrite i accepted
  | drop i => exact Option.some.inj hstep ▸ h.drop i
  | serviceRead given => exact Option.some.inj hstep ▸ h.serviceRead given
  | serviceRun idle =>
      obtain ⟨service, hrun, rfl⟩ := Option.map_eq_some_iff.mp hstep
      exact h.serviceRun hskip hrun
  | serviceWrite accepted => exact Option.some.inj hstep ▸ h.serviceWrite accepted
  | sharedRead given => exact Option.some.inj hstep ▸ h.sharedRead given
  | sharedRun idle malloc capacity =>
      obtain ⟨⟨socket, newsocket⟩, hrun, rfl⟩ := Option.map_eq_some_iff.mp hstep
      exact h.sharedRun hskip capacity hrun
  | sharedWrite accepted => exact Option.some.inj hstep ▸ h.sharedWrite accepted
  | socketWrite i data => exact Option.some.inj hstep ▸ h.socketWrite i data
  | socketRead i count => exact Option.some.inj hstep ▸ h.socketRead i count
  | close i => exact Option.some.inj hstep ▸ h.close i

theorem run (h : s.Keeps k₀ n)
    (hskip : ∀ r n, n ≤ r.bytes.length → skipData r n = r.drop n)
    {actions : List SwitchboxAction}
    (hn : n + (actions.map SwitchboxAction.connects).sum ≤ 65535) {s' : SwitchboxNet}
    (hrun : s.run skipData actions = some s') :
    s'.Keeps k₀ (n + (actions.map SwitchboxAction.connects).sum) :=
  TransitionSystem.invariant_of_spending SwitchboxAction.connects (fun n s => s.Keeps k₀ n)
    (fun _ _ _ _ ht hspent hstep => ht.step hskip hspent hstep) h hn hrun

end Keeps

end SwitchboxNet

structure SwitchboxStart (s : SwitchboxNet) : Prop where
  con : s.root.con = []
  serviceList : s.service.list = []
  socketList : s.socket.list = []
  serviceIncoming : s.service.incoming.bytes = []
  serviceOutgoing : s.service.outgoing.bytes = []
  socketIncoming : s.socket.incoming.bytes = []
  socketOutgoing : s.socket.outgoing.bytes = []
  streams : s.down = [] ∧ s.up = []
  missing : s.service.incomingBytes = 0 ∧ s.socket.incomingBytes = 0
  serviceCapacity : s.service.outgoing.capacity < 0x80000000
  socketCapacity : s.socket.outgoing.capacity < 0x80000000
  clients : s.fromClient = (fun _ => []) ∧ s.toClient = fun _ => []
  sockets : s.fromSocket = (fun _ => []) ∧ s.toSocket = fun _ => []

def quietChannel : SwitchboxChannel where
  sent _ := []
  queue := []
  target := 0
  rest := []
  received _ := []
  port _ := .unopened

theorem quietLane_represents {target : UInt16} :
    SwitchboxLane.Represents ⟨fun _ => [], [], [], 0, target, [], fun _ => []⟩ quietChannel where
  consistent :=
    ⟨fun _ _ => ⟨rfl, fun _ => rfl, rfl, trivial⟩, fun _ h => by simp [quietChannel] at h,
      fun _ h => by simp [quietChannel] at h, fun _ h => by simp [quietChannel, openings] at h,
      List.nodup_nil, fun _ => List.suffix_refl _⟩
  bytes := rfl
  sendable _ h := by simp [quietChannel] at h
  missing := rfl
  target h := absurd rfl h
  waitingKeys := List.nodup_nil
  portKeys := List.nodup_nil
  sent _ := List.nil_prefix
  waiting _ h := absurd h List.not_mem_nil
  taken _ := List.nil_prefix
  ports _ h := absurd h List.not_mem_nil
  opened _ := by simp [quietChannel]

theorem SwitchboxStart.keeps {s : SwitchboxNet} (h : SwitchboxStart s) :
    s.Keeps s.root.currentClientId 0 where
  pair := by
    refine ⟨quietChannel, quietChannel, ?_⟩
    unfold SwitchboxNet.downLane SwitchboxNet.upLane
    rw [h.serviceList, h.socketList, h.serviceIncoming, h.serviceOutgoing, h.socketIncoming,
      h.socketOutgoing, h.streams.1, h.streams.2, h.missing.1, h.missing.2, h.clients.1,
      h.clients.2, h.sockets.1, h.sockets.2]
    exact
      { downward := quietLane_represents
        upward := quietLane_represents
        unannounced := fun _ _ hmem => absurd hmem List.not_mem_nil
        announced := fun _ hu => by simp [quietChannel] at hu
        accepted := fun _ _ => ⟨rfl, by simp [quietChannel, openings]⟩
        plain := rfl
        silent := fun _ _ => rfl
        fresh := fun _ _ => ⟨rfl, rfl⟩
        waiting_issued := fun _ hmem => absurd hmem List.not_mem_nil
        ports_issued := fun _ hmem => absurd hmem List.not_mem_nil }
  root := ⟨rfl, by simp [h.con]⟩
  serviceCapacity := h.serviceCapacity
  socketCapacity := h.socketCapacity

/-- Each client has one emulated socket at most; what the socket gives to the service are
the first bytes of its own client, and what the client gets are the first bytes which the
service has written to its socket.  When nothing waits any more, all bytes have come. -/
structure SwitchboxIsolated (s : SwitchboxNet) : Prop where
  oneSocket : (s.socket.list.map fun c => c.clientId).Nodup
  toSocket : ∀ k, s.toSocket k <+: s.fromClient k
  toClient : ∀ k, s.toClient k <+: s.fromSocket k
  toSocket_all : s.service.outgoing.bytes = [] → s.down = [] → s.socket.incoming.bytes = [] →
    ∀ b ∈ s.service.list, ∀ c ∈ s.socket.list, b.clientId = c.clientId →
      b.incoming.bytes = [] → c.outgoing.bytes = [] →
        s.toSocket c.clientId = s.fromClient c.clientId
  toClient_all : s.socket.outgoing.bytes = [] → s.up = [] → s.service.incoming.bytes = [] →
    ∀ b ∈ s.service.list, ∀ c ∈ s.socket.list, b.clientId = c.clientId →
      c.incoming.bytes = [] → b.outgoing.bytes = [] →
        s.toClient b.clientId = s.fromSocket b.clientId

theorem SwitchboxNet.Keeps.isolated {k₀ : UInt16} {n : ℕ} {s : SwitchboxNet}
    (h : s.Keeps k₀ n) : SwitchboxIsolated s := by
  obtain ⟨d, u, hpair⟩ := h.pair
  refine ⟨?_, hpair.downward.taken_prefix, hpair.upward.taken_prefix, ?_, ?_⟩
  · have hkeys := hpair.downward.portKeys
    rw [SwitchboxNet.downLane, List.map_map] at hkeys
    exact hkeys
  · intro houtgoing hdown hincoming b hb c hc hid hwaiting hport
    refine hpair.downward.taken_all ?_ ?_ ?_
    · simp [SwitchboxNet.downLane, houtgoing, hdown, hincoming]
    · exact List.mem_map.mpr ⟨b, hb, by rw [SwitchboxEntry.waiting, hwaiting, hid]⟩
    · exact List.mem_map.mpr ⟨c, hc, by rw [SwitchboxEntry.port, hport]; rfl⟩
  · intro houtgoing hup hincoming b hb c hc hid hwaiting hport
    obtain ⟨i, hi, rfl⟩ := List.getElem_of_mem hc
    have hopened := SwitchboxNet.Keeps.linked_opened hpair (List.getElem?_eq_getElem hi)
    have hannounced : b.newConnectionMsgSent = true := by
      by_contra hnot
      rw [Bool.not_eq_true] at hnot
      have hmem : (b.clientId, b.outgoing.bytes, false) ∈ s.upLane.ports :=
        List.mem_map.mpr ⟨b, hb, by
          rw [SwitchboxEntry.port, SwitchboxNet.announced, hnot]⟩
      have hclosed := (hpair.accepted _ (hpair.unannounced _ _ hmem)).1
      rw [hid, hopened] at hclosed
      cases hclosed
    refine hpair.upward.taken_all ?_ ?_ ?_
    · simp [SwitchboxNet.upLane, houtgoing, hup, hincoming]
    · exact List.mem_map.mpr ⟨_, hc, by rw [SwitchboxEntry.waiting, hwaiting, hid]⟩
    · exact List.mem_map.mpr ⟨b, hb, by
        rw [SwitchboxEntry.port, hport, SwitchboxNet.announced, hannounced]⟩

/-- However clients connect, send, receive and
go, however the service uses their sockets, and however the shared streams are split, as
long as no more than 65535 client ids are given no client gets bytes of another one, or
out of order.  `skipData` stands for `ioc_switchbox_ringbuf_skip_data`. -/
theorem switchbox_isolation {skipData : OsalRingBuf → ℕ → OsalRingBuf}
    (hskip : ∀ r n, n ≤ r.bytes.length → skipData r n = r.drop n) {s₀ s : SwitchboxNet}
    (hstart : SwitchboxStart s₀) {actions : List SwitchboxAction}
    (hconnects : (actions.map SwitchboxAction.connects).sum ≤ 65535)
    (hrun : s₀.run skipData actions = some s) : SwitchboxIsolated s :=
  (hstart.keeps.run hskip (by rwa [Nat.zero_add]) hrun).isolated

def quietNet : SwitchboxNet where
  root := ⟨0, []⟩
  service := ⟨[], emptyRing 40, emptyRing 40, 0, 0, 0⟩
  down := []
  up := []
  socket := ⟨[], emptyRing 40, emptyRing 40, 0, 0, 0⟩
  fromClient _ := []
  toClient _ := []
  fromSocket _ := []
  toSocket _ := []

/-- The bytes of one client come in parts while another client connects. -/
theorem switchbox_isolation_twoClients :
    ∃ s, quietNet.run OsalRingBuf.drop
        [.connect 8, .clientRead 0 [1, 2, 3], .serviceRun false, .connect 8, .serviceWrite 17,
          .sharedRead 14, .sharedRun false true (some 8), .sharedRun false true none,
          .socketRead 0 1, .socketWrite 0 [9], .drop 0, .sharedRun false true none] = some s ∧
      SwitchboxIsolated s := by
  have hsome : (quietNet.run OsalRingBuf.drop
      [.connect 8, .clientRead 0 [1, 2, 3], .serviceRun false, .connect 8, .serviceWrite 17,
        .sharedRead 14, .sharedRun false true (some 8), .sharedRun false true none,
        .socketRead 0 1, .socketWrite 0 [9], .drop 0,
        .sharedRun false true none]).isSome = true := by
    decide +kernel
  obtain ⟨s, hs⟩ := Option.isSome_iff_exists.mp hsome
  exact ⟨s, hs, switchbox_isolation (fun _ _ _ => rfl)
    ⟨rfl, rfl, rfl, rfl, rfl, rfl, rfl, ⟨rfl, rfl⟩, ⟨rfl, rfl⟩, by decide, by decide,
      ⟨rfl, rfl⟩, ⟨rfl, rfl⟩⟩ (by decide) hs⟩

end Iocom
