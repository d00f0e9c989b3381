import Iocom.SwitchboxIsolation

/-!
# Messages about dropped connections

The message about a dropped connection is looked up with the client id of the last data.
So it stops only clients for which data has come, whichever client it is about.
-/

namespace Iocom

open KeyedChannel (Parcel Port openings)

def SwitchboxEntry.mark (c : SwitchboxEntry) : UInt16 × Bool := (c.clientId, c.stopped)

namespace SwitchboxShared

structure StopsSent (t : SwitchboxShared) (history : UInt16 → List UInt8) : Prop where
  target : t.incomingClientId ≠ 0 → history t.incomingClientId ≠ []
  stopped : ∀ p ∈ t.list.map SwitchboxEntry.mark, p.2 = true → history p.1 ≠ []

structure SameMarks (t t' : SwitchboxShared) : Prop where
  list : t'.list.map SwitchboxEntry.mark = t.list.map SwitchboxEntry.mark
  target : t'.incomingClientId = t.incomingClientId

variable {t t' : SwitchboxShared} {history history' : UInt16 → List UInt8}

theorem SameMarks.refl (t : SwitchboxShared) : t.SameMarks t := ⟨rfl, rfl⟩

theorem SameMarks.trans {t'' : SwitchboxShared} (h : t.SameMarks t') (h' : t'.SameMarks t'') :
    t.SameMarks t'' := ⟨h'.list.trans h.list, h'.target.trans h.target⟩

theorem StopsSent.of_sameMarks (h : t.StopsSent history) (hsame : t.SameMarks t') :
    t'.StopsSent history := by
  refine ⟨?_, ?_⟩
  · rw [hsame.target]
    exact h.target
  · rw [hsame.list]
    exact h.stopped

theorem StopsSent.addBytes (h : t.StopsSent history) (k : UInt16) (bytes : List UInt8) :
    t.StopsSent (SwitchboxNet.addBytes history k bytes) := by
  have hmore : ∀ j, history j ≠ [] → SwitchboxNet.addBytes history k bytes j ≠ [] := by
    intro j hj
    unfold SwitchboxNet.addBytes
    obtain rfl | hjk := eq_or_ne j k
    · rw [Function.update_self]
      exact fun hnil => hj (List.append_eq_nil_iff.mp hnil).1
    · rw [Function.update_of_ne hjk]
      exact hj
  exact ⟨fun hne => hmore _ (h.target hne), fun p hp hstop => hmore _ (h.stopped p hp hstop)⟩

theorem StopsSent.append (h : t.StopsSent history) {c : SwitchboxEntry} (hc : c.stopped = false) :
    StopsSent { t with list := t.list ++ [c] } history := by
  refine ⟨h.target, fun p hp hstop => ?_⟩
  rw [List.map_append, List.mem_append] at hp
  rcases hp with hp | hp
  · exact h.stopped p hp hstop
  · obtain rfl := List.mem_singleton.mp hp
    rw [SwitchboxEntry.mark, hc] at hstop
    cases hstop

theorem StopsSent.eraseIdx (h : t.StopsSent history) (i : ℕ) :
    StopsSent { t with list := t.list.eraseIdx i } history :=
  ⟨h.target, fun p hp hstop =>
    h.stopped p (((List.eraseIdx_sublist _ i).map SwitchboxEntry.mark).subset hp) hstop⟩

theorem sameMarks_set {i : ℕ} {c c' : SwitchboxEntry} (hc : t.list[i]? = some c)
    (hmark : c'.mark = c.mark) : t.SameMarks { t with list := t.list.set i c' } :=
  ⟨Registry.map_key_set hc hmark, rfl⟩

/-! ## The parts of a run -/

theorem announceAt_sameMarks (i : ℕ) : t.SameMarks (t.announceAt i) := by
  rcases announceAt_spec (s := t) (i := i) with hsame | ⟨c, outgoing, hc, -, -, -, hturn⟩
  · rw [hsame]
    exact .refl t
  · rw [hturn]
    exact ⟨Registry.map_key_set hc rfl, rfl⟩

theorem serveAt_sameMarks {ready : SwitchboxClient → Bool} (i : ℕ)
    (hspace : sboxHdrSize + 1 ≤ t.outgoing.space) : t.SameMarks (t.serveAt ready i) := by
  rcases serveAt_spec ready (i := i) hspace with
    hsame | ⟨c, n, outgoing, hc, -, -, -, -, -, -, hturn⟩
  · rw [hsame]
    exact .refl t
  · rw [hturn]
    exact ⟨Registry.map_key_set hc rfl, rfl⟩

theorem moveData_sameMarks {skipData : OsalRingBuf → ℕ → OsalRingBuf}
    (hskip : ∀ r n, n ≤ r.bytes.length → skipData r n = r.drop n)
    (present : SwitchboxEntry → Bool) : t.SameMarks (t.moveData skipData present) := by
  rcases moveData_spec hskip present t with
    hsame | ⟨n, -, -, -, ⟨i, c, outgoing, hc, -, -, -, heq⟩ | ⟨-, heq⟩⟩
  · rw [hsame]
    exact .refl t
  · rw [heq]
    exact ⟨Registry.map_key_set hc rfl, rfl⟩
  · rw [heq]
    exact ⟨rfl, rfl⟩

theorem keepAlive_sameMarks (idle : Bool) : t.SameMarks (t.keepAlive idle) := by
  unfold keepAlive
  split_ifs
  · exact ⟨rfl, rfl⟩
  · exact .refl t

theorem serve_sameMarks_sockets
    (h : t.serve selectIndividualSocket moveToSharedSocket = some t') : t.SameMarks t' :=
  serve_keeps (Q := t.SameMarks) (fun _ _ hs => ⟨hs.list, hs.target⟩)
    (by simp [selectIndividualSocket, server])
    (by
      rw [show (selectIndividualSocket t.server).1.clients =
        t.list.map SwitchboxEntry.toSwitchboxClient from rfl,
        show (selectIndividualSocket t.server).1.outgoing = t.outgoing from rfl,
        withClients_self]
      exact .refl t)
    (fun _ i hs hspace => hs.trans (serveAt_sameMarks i hspace)) h

theorem serve_sameMarks_clients
    (h : t.serve selectConnection moveToService = some t') : t.SameMarks t' := by
  have hselect := selectConnection_keeps (s := t) (Q := t.SameMarks)
    (fun _ i hs => hs.trans (announceAt_sameMarks i)) (.refl t)
  exact serve_keeps (Q := t.SameMarks) (fun _ _ hs => ⟨hs.list, hs.target⟩) hselect.1 hselect.2
    (fun _ i hs hspace => hs.trans (serveAt_sameMarks i hspace)) h

theorem StopsSent.stop (h : t.StopsSent history) {f : SwitchboxEntry → SwitchboxEntry}
    (hf : ∀ c ∈ t.list, (f c).clientId = c.clientId ∧
      ((f c).stopped = c.stopped ∨ c.clientId = t.incomingClientId))
    (hne : ∀ c ∈ t.list, c.clientId ≠ 0) :
    StopsSent { t with list := t.list.map f } history := by
  refine ⟨h.target, fun p hp hstop => ?_⟩
  rw [List.map_map] at hp
  obtain ⟨c, hc, rfl⟩ := List.mem_map.mp hp
  obtain ⟨hid, hstopped⟩ := hf c hc
  dsimp only [Function.comp, SwitchboxEntry.mark] at hstop ⊢
  rw [hid]
  rcases hstopped with hsame | htarget
  · exact h.stopped c.mark (List.mem_map_of_mem hc) (hsame.symm.trans hstop)
  · have hclient := hne c hc
    rw [htarget] at hclient ⊢
    exact h.target hclient

end SwitchboxShared

namespace SwitchboxNet

variable {k₀ : UInt16} {n : ℕ} {s s' : SwitchboxNet}
  {skipData : OsalRingBuf → ℕ → OsalRingBuf}

theorem issued_ne_zero {k : UInt16} (h : Issued k₀ n k) : k ≠ 0 := by
  obtain ⟨j, -, rfl⟩ := h
  intro hzero
  have hnat := iterate_incrementClientId_toNat k₀ j
  rw [hzero] at hnat
  exact absurd hnat (by simp)

namespace Keeps

theorem service_ne_zero (h : s.Keeps k₀ n) : ∀ c ∈ s.service.list, c.clientId ≠ 0 := by
  obtain ⟨d, u, hpair⟩ := h.pair
  intro c hc
  refine issued_ne_zero (hpair.waiting_issued c.clientId ?_)
  rw [downLane, List.map_map]
  exact List.mem_map_of_mem (f := Prod.fst ∘ SwitchboxEntry.waiting) hc

theorem socket_ne_zero (h : s.Keeps k₀ n) : ∀ c ∈ s.socket.list, c.clientId ≠ 0 := by
  obtain ⟨d, u, hpair⟩ := h.pair
  intro c hc
  obtain ⟨i, hi, rfl⟩ := List.getElem_of_mem hc
  have hopened := linked_opened hpair (List.getElem?_eq_getElem hi)
  by_contra hzero
  have hu : u.port s.socket.list[i].clientId = .unopened :=
    (hpair.fresh _ fun hissued => issued_ne_zero hissued hzero).2
  rw [(hpair.accepted _ hu).1] at hopened
  cases hopened

theorem stopsSent_serviceHeader (h : s.Keeps k₀ n) (hs : s.service.StopsSent s.fromSocket) :
    (s.service.takeHeader SwitchboxShared.serviceControl).1.StopsSent s.fromSocket := by
  unfold SwitchboxShared.takeHeader
  split_ifs with hmissing
  · exact hs
  rw [not_not] at hmissing
  obtain ⟨d, u, hpair⟩ := h.pair
  have hbytes : s.upLane.bytes =
      s.service.incoming.bytes ++ (s.up ++ s.socket.outgoing.bytes) := List.append_assoc _ _ _
  rcases hpair.upward.nextHeader hbytes hmissing with hnone | ⟨p, queue, hqueue, -, hheader⟩
  · rw [hnone]
    exact hs
  rw [hheader]
  dsimp only
  split_ifs with hpos
  · cases p with
    | content k data =>
        exact ⟨fun _ => hpair.upward.total_ne_nil (hqueue ▸ List.mem_cons_self ..), hs.stopped⟩
    | opening k => exact absurd hpos (show ¬0 < iocSwitchboxNewConnection by decide)
    | note m =>
        have hcode : m.2 = iocSwitchboxConnectionDropped ∨ m.2 = iocSwitchboxKeepalive :=
          hpair.upward.sendable (.note m) (hqueue ▸ List.mem_cons_self ..)
        rcases hcode with hcode | hcode <;>
          simp [SwitchboxLane.Represents.header, hcode, iocSwitchboxConnectionDropped,
            iocSwitchboxKeepalive] at hpos
  · unfold SwitchboxShared.serviceControl
    split_ifs
    · have hstop := SwitchboxShared.StopsSent.stop
        (t := { s.service with incoming := s.service.incoming.drop sboxHdrSize })
        ⟨hs.target, hs.stopped⟩
        (f := fun c => if c.newConnectionMsgSent ∧ c.clientId = s.service.incomingClientId then
          { c with stopped := true, connectionDroppedMessageDone := true } else c)
        (fun c _ => by
          dsimp only
          split_ifs with hboth
          · exact ⟨rfl, .inr hboth.2⟩
          · exact ⟨rfl, .inl rfl⟩) h.service_ne_zero
      exact hstop
    · exact ⟨hs.target, hs.stopped⟩

theorem stopsSent_socketHeader (h : s.Keeps k₀ n) (hs : s.socket.StopsSent s.fromClient) :
    (s.socket.takeHeader SwitchboxShared.socketControl).1.StopsSent s.fromClient := by
  unfold SwitchboxShared.takeHeader
  split_ifs with hmissing
  · exact hs
  rw [not_not] at hmissing
  obtain ⟨d, u, hpair⟩ := h.pair
  have hbytes : s.downLane.bytes =
      s.socket.incoming.bytes ++ (s.down ++ s.service.outgoing.bytes) := List.append_assoc _ _ _
  rcases hpair.downward.nextHeader hbytes hmissing with hnone | ⟨p, queue, hqueue, -, hheader⟩
  · rw [hnone]
    exact hs
  rw [hheader]
  dsimp only
  split_ifs with hpos
  · cases p with
    | content k data =>
        exact ⟨fun _ => hpair.downward.total_ne_nil (hqueue ▸ List.mem_cons_self ..), hs.stopped⟩
    | opening k => exact absurd hpos (show ¬0 < iocSwitchboxNewConnection by decide)
    | note m =>
        have hcode : m.2 = iocSwitchboxConnectionDropped ∨ m.2 = iocSwitchboxKeepalive :=
          hpair.downward.sendable (.note m) (hqueue ▸ List.mem_cons_self ..)
        rcases hcode with hcode | hcode <;>
          simp [SwitchboxLane.Represents.header, hcode, iocSwitchboxConnectionDropped,
            iocSwitchboxKeepalive] at hpos
  · unfold SwitchboxShared.socketControl
    split_ifs
    · exact ⟨hs.target, hs.stopped⟩
    · have hstop := SwitchboxShared.StopsSent.stop
        (t := { s.socket with incoming := s.socket.incoming.drop sboxHdrSize })
        ⟨hs.target, hs.stopped⟩
        (f := fun c => if c.clientId = s.socket.incomingClientId then
          { c with stopped := true } else c)
        (fun c _ => by
          dsimp only
          split_ifs with hid
          · exact ⟨rfl, .inr hid⟩
          · exact ⟨rfl, .inl rfl⟩) h.socket_ne_zero
      exact hstop
    · exact ⟨hs.target, hs.stopped⟩

end Keeps

/-! ## Runs -/

structure StopsSent (s : SwitchboxNet) : Prop where
  service : s.service.StopsSent s.fromSocket
  socket : s.socket.StopsSent s.fromClient

theorem StopsSent.step (h : s.Keeps k₀ n) (hs : s.StopsSent)
    (hskip : ∀ r n, n ≤ r.bytes.length → skipData r n = r.drop n) {action : SwitchboxAction}
    (hstep : s.step skipData action = some s') : s'.StopsSent := by
  cases action with
  | connect capacity =>
      obtain ⟨⟨clientId, root⟩, -, rfl⟩ := Option.map_eq_some_iff.mp hstep
      exact ⟨hs.service.append rfl, hs.socket⟩
  | connectOther =>
      obtain ⟨⟨clientId, root⟩, -, rfl⟩ := Option.map_eq_some_iff.mp hstep
      exact ⟨hs.service, hs.socket⟩
  | releaseOther clientId => exact Option.some.inj hstep ▸ ⟨hs.service, hs.socket⟩
  | clientRead i data =>
      obtain rfl := Option.some.inj hstep
      unfold SwitchboxNet.clientRead
      cases hc : s.service.list[i]? with
      | none => exact hs
      | some c =>
          exact ⟨hs.service.of_sameMarks (SwitchboxShared.sameMarks_set hc rfl),
            hs.socket.addBytes _ _⟩
  | clientWrite i accepted =>
      obtain rfl := Option.some.inj hstep
      unfold SwitchboxNet.clientWrite
      cases hc : s.service.list[i]? with
      | none => exact hs
      | some c =>
          exact ⟨hs.service.of_sameMarks (SwitchboxShared.sameMarks_set hc rfl), hs.socket⟩
  | drop i =>
      obtain rfl := Option.some.inj hstep
      unfold SwitchboxNet.drop
      cases hc : s.service.list[i]? with
      | none => exact hs
      | some c =>
          have hgone := hs.service.eraseIdx i
          exact ⟨⟨hgone.target, hgone.stopped⟩, hs.socket⟩
  | serviceRead given =>
      obtain rfl := Option.some.inj hstep
      exact ⟨⟨hs.service.target, hs.service.stopped⟩, hs.socket⟩
  | serviceRun idle =>
      obtain ⟨service, hrun, rfl⟩ := Option.map_eq_some_iff.mp hstep
      obtain ⟨served, hserve, rfl⟩ := Option.map_eq_some_iff.mp hrun
      have hserved := hs.service.of_sameMarks (SwitchboxShared.serve_sameMarks_clients hserve)
      have hheader := (h.serveClients hserve).stopsSent_serviceHeader hserved
      exact ⟨(hheader.of_sameMarks (SwitchboxShared.moveData_sameMarks hskip _)).of_sameMarks
        (SwitchboxShared.keepAlive_sameMarks idle), hs.socket⟩
  | serviceWrite accepted =>
      obtain rfl := Option.some.inj hstep
      exact ⟨⟨hs.service.target, hs.service.stopped⟩, hs.socket⟩
  | sharedRead given =>
      obtain rfl := Option.some.inj hstep
      exact ⟨hs.service, hs.socket.target, hs.socket.stopped⟩
  | sharedRun idle malloc capacity =>
      obtain ⟨⟨socket, newsocket⟩, hrun, rfl⟩ := Option.map_eq_some_iff.mp hstep
      obtain ⟨served, hserve, hpair⟩ := Option.map_eq_some_iff.mp hrun
      have hserved := hs.socket.of_sameMarks (SwitchboxShared.serve_sameMarks_sockets hserve)
      have hheader := (h.serveSockets hserve).stopsSent_socketHeader hserved
      generalize served.takeHeader SwitchboxShared.socketControl = taken at hpair hheader
      obtain ⟨t, taken⟩ := taken
      refine ⟨hs.service, ?_⟩
      dsimp only at hpair
      split_ifs at hpair
      · obtain ⟨rfl, rfl⟩ := Prod.mk.inj hpair
        dsimp only
        rw [Keeps.link_none]
        exact hheader
      obtain ⟨rfl, rfl⟩ := Prod.mk.inj hpair
      have hdone := (hheader.of_sameMarks (SwitchboxShared.moveData_sameMarks hskip
        fun _ => true)).of_sameMarks (SwitchboxShared.keepAlive_sameMarks idle)
      cases taken with
      | none =>
          dsimp only
          rw [Keeps.link_none]
          exact hdone
      | some k =>
          cases capacity with
          | none => exact hdone
          | some capacity => exact hdone.append rfl
  | sharedWrite accepted =>
      obtain rfl := Option.some.inj hstep
      exact ⟨hs.service, hs.socket.target, hs.socket.stopped⟩
  | socketWrite i data =>
      obtain rfl := Option.some.inj hstep
      unfold SwitchboxNet.socketWrite
      cases hc : s.socket.list[i]? with
      | none => exact hs
      | some c =>
          dsimp only
          split_ifs
          · exact hs
          · exact ⟨hs.service.addBytes _ _,
              hs.socket.of_sameMarks (SwitchboxShared.sameMarks_set hc rfl)⟩
  | socketRead i count =>
      obtain rfl := Option.some.inj hstep
      unfold SwitchboxNet.socketRead
      cases hc : s.socket.list[i]? with
      | none => exact hs
      | some c =>
          dsimp only
          split_ifs
          · exact hs
          · exact ⟨hs.service,
              hs.socket.of_sameMarks (SwitchboxShared.sameMarks_set hc rfl)⟩
  | close i =>
      obtain rfl := Option.some.inj hstep
      exact ⟨hs.service, hs.socket.eraseIdx i⟩

theorem StopsSent.run (h : s.Keeps k₀ n) (hs : s.StopsSent)
    (hskip : ∀ r n, n ≤ r.bytes.length → skipData r n = r.drop n)
    {actions : List SwitchboxAction}
    (hn : n + (actions.map SwitchboxAction.connects).sum ≤ 65535)
    (hrun : s.run skipData actions = some s') : s'.StopsSent :=
  (TransitionSystem.invariant_of_spending SwitchboxAction.connects
    (fun n s => s.Keeps k₀ n ∧ s.StopsSent)
    (fun _ _ _ _ ht hspent hstep => ⟨ht.1.step hskip hspent hstep, ht.2.step ht.1 hskip hstep⟩)
    ⟨h, hs⟩ hn hrun).2

end SwitchboxNet

/-- In every run, while the client
ids last, an emulated socket is stopped only if its client has sent data, and a client is
only if something has been written to its socket. -/
theorem switchbox_stops_sent {skipData : OsalRingBuf → ℕ → OsalRingBuf}
    (hskip : ∀ r n, n ≤ r.bytes.length → skipData r n = r.drop n) {s₀ s : SwitchboxNet}
    (hstart : SwitchboxStart s₀)
    (htarget : s₀.service.incomingClientId = 0 ∧ s₀.socket.incomingClientId = 0)
    {actions : List SwitchboxAction}
    (hconnects : (actions.map SwitchboxAction.connects).sum ≤ 65535)
    (hrun : s₀.run skipData actions = some s) :
    (∀ c ∈ s.socket.list, c.stopped = true → s.fromClient c.clientId ≠ []) ∧
      ∀ c ∈ s.service.list, c.stopped = true → s.fromSocket c.clientId ≠ [] := by
  have hquiet : s₀.StopsSent :=
    { service := ⟨fun hne => absurd htarget.1 hne, by simp [hstart.serviceList]⟩
      socket := ⟨fun hne => absurd htarget.2 hne, by simp [hstart.socketList]⟩ }
  have hend := hquiet.run hstart.keeps hskip (by rwa [Nat.zero_add]) hrun
  exact ⟨fun c hc hstop => hend.socket.stopped c.mark (List.mem_map_of_mem hc) hstop,
    fun c hc hstop => hend.service.stopped c.mark (List.mem_map_of_mem hc) hstop⟩

/-- A client goes after its data has come, and its emulated socket is stopped. -/
theorem switchbox_stops_sent_oneClient :
    ∃ s, quietNet.run OsalRingBuf.drop
        [.connect 8, .clientRead 0 [1, 2], .serviceRun false, .serviceWrite 40, .sharedRead 40,
          .sharedRun false true (some 8), .sharedRun false true none, .drop 0, .serviceWrite 40,
          .sharedRead 40, .sharedRun false true none] = some s ∧
      (∃ c ∈ s.socket.list, c.stopped = true) ∧
      (∀ c ∈ s.socket.list, c.stopped = true → s.fromClient c.clientId ≠ []) ∧
      ∀ c ∈ s.service.list, c.stopped = true → s.fromSocket c.clientId ≠ [] := by
  have hstopped : (quietNet.run OsalRingBuf.drop
      [.connect 8, .clientRead 0 [1, 2], .serviceRun false, .serviceWrite 40, .sharedRead 40,
        .sharedRun false true (some 8), .sharedRun false true none, .drop 0, .serviceWrite 40,
        .sharedRead 40, .sharedRun false true none]).any
      (fun s => s.socket.list.any SwitchboxEntry.stopped) = true := by
    decide +kernel
  obtain ⟨s, hs, hany⟩ := (Option.any_eq_true _ _).mp hstopped
  exact ⟨s, hs, List.any_eq_true.mp hany, switchbox_stops_sent (fun _ _ _ => rfl)
    ⟨rfl, rfl, rfl, rfl, rfl, rfl, rfl, ⟨rfl, rfl⟩, ⟨rfl, rfl⟩, by decide, by decide,
      ⟨rfl, rfl⟩, ⟨rfl, rfl⟩⟩ ⟨rfl, rfl⟩ (by decide) hs⟩

end Iocom
