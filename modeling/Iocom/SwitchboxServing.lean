import Iocom.SwitchboxLanes

/-!
# Serving the clients one at a time

The loops of both ends come to one client after the other.  What a single client's turn
keeps, the loops keep.
-/

namespace Iocom

namespace SwitchboxShared

/-- The turn of the client at `i` in the loop which moves data to the shared connection. -/
def serveAt (ready : SwitchboxClient → Bool) (s : SwitchboxShared) (i : ℕ) : SwitchboxShared :=
  match s.list[i]? with
  | none => s
  | some c =>
      if !ready c.toSwitchboxClient || c.incoming.bytes.isEmpty then s
      else
        let bytes := min c.incoming.bytes.length (s.outgoing.space - sboxHdrSize)
        let outgoing := (storeMsgHeaderToRingbuf s.outgoing c.clientId bytes).getD s.outgoing
        let moved := switchboxRingbufMove outgoing c.incoming bytes
        { s with
          list := s.list.set i { c with incoming := moved.2 }
          outgoing := moved.1 }

/-- The turn of the client at `i` in the loop which announces new connections. -/
def announceAt (s : SwitchboxShared) (i : ℕ) : SwitchboxShared :=
  match s.list[i]? with
  | none => s
  | some c =>
      if c.newConnectionMsgSent then s
      else
        match storeMsgHeaderToRingbuf s.outgoing c.clientId iocSwitchboxNewConnection with
        | none => s
        | some outgoing =>
            { s with
              list := s.list.set i { c with newConnectionMsgSent := true }
              outgoing := outgoing }

variable {s s' : SwitchboxShared} {ready : SwitchboxClient → Bool} {i : ℕ}

/-! ## The clients as entries of the list -/

/-- The shared connection with the parts of its clients replaced which the loops change. -/
def withClients (s : SwitchboxShared) (clients : List SwitchboxClient) (outgoing : OsalRingBuf) :
    SwitchboxShared :=
  { s with
    list := s.list.zipWith (fun c client => { c with toSwitchboxClient := client }) clients
    outgoing := outgoing }

theorem withClients_self :
    s.withClients (s.list.map SwitchboxEntry.toSwitchboxClient) s.outgoing = s := by
  rw [withClients, List.zipWith_map_right, List.zipWith_self]
  simp

theorem withClients_getElem? {clients : List SwitchboxClient} {outgoing : OsalRingBuf} :
    (s.withClients clients outgoing).list[i]? =
      match s.list[i]?, clients[i]? with
      | some c, some client => some { c with toSwitchboxClient := client }
      | _, _ => none := by
  rw [withClients, List.getElem?_zipWith]
  cases s.list[i]? <;> cases clients[i]? <;> rfl

theorem withClients_set (clients : List SwitchboxClient) (outgoing : OsalRingBuf)
    (client : SwitchboxClient) {c : SwitchboxEntry} (hc : s.list[i]? = some c) :
    (s.withClients (clients.set i client) outgoing).list =
      (s.withClients clients outgoing).list.set i { c with toSwitchboxClient := client } := by
  obtain ⟨hi, rfl⟩ := List.getElem?_eq_some_iff.mp hc
  apply List.ext_getElem
  · simp [withClients]
  · intro j hj hj'
    rcases eq_or_ne i j with rfl | hne
    · simp [withClients]
    · simp [withClients, hne]

/-- The turn of a client in the model of the loop is its turn here. -/
theorem withClients_serve {t : ServeState} (hlength : t.clients.length = s.list.length) :
    s.withClients (t.serve ready i).clients (t.serve ready i).outgoing =
      (s.withClients t.clients t.outgoing).serveAt ready i := by
  unfold ServeState.serve serveAt
  rw [withClients_getElem?]
  cases hclient : t.clients[i]? with
  | none => cases s.list[i]? <;> rfl
  | some client =>
      have hi : i < s.list.length := hlength ▸ (List.getElem?_eq_some_iff.mp hclient).1
      rw [List.getElem?_eq_getElem hi]
      dsimp only
      split_ifs with hskip
      · rfl
      · have hset := withClients_set (s := s) t.clients t.outgoing
            { client with
              incoming := (switchboxRingbufMove
                ((storeMsgHeaderToRingbuf t.outgoing client.clientId
                  ((min client.incoming.bytes.length (t.outgoing.space - sboxHdrSize) : ℕ) :
                    ℤ)).getD t.outgoing)
                client.incoming
                (min client.incoming.bytes.length (t.outgoing.space - sboxHdrSize))).2 }
          (List.getElem?_eq_getElem hi)
        simp only [withClients] at hset ⊢
        rw [hset]

/-! ## The rules for the loops -/

theorem serve_length {t : ServeState} : (t.serve ready i).clients.length = t.clients.length := by
  unfold ServeState.serve
  split
  · rfl
  · split_ifs
    · rfl
    · simp

theorem serveLoop_keeps {Q : SwitchboxShared → Prop}
    (hserve : ∀ s i, Q s → sboxHdrSize + 1 ≤ s.outgoing.space → Q (s.serveAt ready i))
    {fuel current : ℕ} {t t' : ServeState} (hlength : t.clients.length = s.list.length)
    (hQ : Q (s.withClients t.clients t.outgoing))
    (h : serveLoop ready current fuel i t = some t') :
    Q (s.withClients t'.clients t'.outgoing) := by
  induction fuel generalizing i t with
  | zero => simp [serveLoop] at h
  | succ fuel ih =>
      simp only [serveLoop] at h
      split_ifs at h with hspace hcurrent hcurrent
      · exact ih (t := t.visit i) hlength hQ h
      · obtain rfl := Option.some.inj h
        exact hQ
      all_goals
        have hnext : Q (s.withClients ((t.visit i).serve ready i).clients
            ((t.visit i).serve ready i).outgoing) := by
          rw [withClients_serve (by exact hlength)]
          exact hserve _ i hQ (Nat.not_lt.mp hspace)
      · exact ih (t := (t.visit i).serve ready i) (serve_length.trans hlength) hnext h
      · obtain rfl := Option.some.inj h
        exact hnext

/-- What the selection and each turn keep, the first part of a run keeps. -/
theorem serve_keeps {Q : SwitchboxShared → Prop}
    {select : SwitchboxServer → SwitchboxServer × Option ℕ}
    (hix : ∀ s ix, Q s → Q { s with currentIx := ix })
    (hlength : (select s.server).1.clients.length = s.list.length)
    (hselect : Q (s.withClients (select s.server).1.clients (select s.server).1.outgoing))
    (hserve : ∀ s i, Q s → sboxHdrSize + 1 ≤ s.outgoing.space → Q (s.serveAt ready i))
    (h : s.serve select (fun fuel current server =>
      serveLoop ready current fuel current ⟨server.clients, server.outgoing, []⟩) = some s') :
    Q s' := by
  unfold serve at h
  split at h
  next server heq =>
      obtain rfl := Option.some.inj h
      rw [heq] at hselect
      exact hix _ _ hselect
  next server current heq =>
      rw [heq] at hselect hlength
      obtain ⟨t, ht, rfl⟩ := Option.map_eq_some_iff.mp h
      exact hix _ _ (serveLoop_keeps hserve hlength hselect ht)

theorem serveLoop_rounds {server : SwitchboxServer} {current fuel : ℕ} {t : ServeState}
    (hcurrent : current < server.clients.length)
    (h : serveLoop ready current fuel current ⟨server.clients, server.outgoing, []⟩ = some t) :
    (serveLoop ready current server.clients.length current
      ⟨server.clients, server.outgoing, []⟩).isSome := by
  obtain ⟨m, hm⟩ : ∃ m, server.clients.length = m + 1 :=
    ⟨server.clients.length - 1, by omega⟩
  have hround : current = (current + (m + 1)) % server.clients.length := by
    rw [← hm, Nat.add_mod_right, Nat.mod_eq_of_lt hcurrent]
  by_cases hspace : server.outgoing.space < sboxHdrSize + 1
  · rw [hm, serveLoop]
    simp [ServeState.visit, hspace]
  · by_cases hneed : ServeState.need ready ⟨server.clients, server.outgoing, []⟩ current (m + 1) +
        (sboxHdrSize + 1) ≤ server.outgoing.space
    · obtain ⟨t', hrun, -⟩ := ServeState.serveLoop_ends ready hcurrent
        (show m < server.clients.length by omega) hround hneed
      rw [hm, hrun]
      rfl
    · have hnone := ServeState.serveLoop_hangs ready (m := m)
        (s := ⟨server.clients, server.outgoing, []⟩) hcurrent
        (show m < server.clients.length by omega) hround hneed (.inr (Nat.not_lt.mp hspace)) fuel
      rw [hnone] at h
      cases h

theorem visit_eq (ix : ℤ) (scan : ServiceScan) (c : SwitchboxClient) :
    ∃ c', (scan.visit ix c).clients = scan.clients ++ [c'] ∧
      ((c' = c ∧ (scan.visit ix c).outgoing = scan.outgoing) ∨
        (c.newConnectionMsgSent = false ∧ c' = { c with newConnectionMsgSent := true } ∧
          storeMsgHeaderToRingbuf scan.outgoing c.clientId iocSwitchboxNewConnection =
            some (scan.visit ix c).outgoing)) := by
  unfold ServiceScan.visit
  dsimp only
  by_cases hsent : c.newConnectionMsgSent = true
  · refine ⟨c, ?_⟩
    rw [if_pos hsent]
    split_ifs <;> exact ⟨rfl, .inl ⟨rfl, rfl⟩⟩
  · rw [if_neg hsent]
    cases hstore : storeMsgHeaderToRingbuf scan.outgoing c.clientId iocSwitchboxNewConnection with
    | none => exact ⟨c, rfl, .inl ⟨rfl, rfl⟩⟩
    | some outgoing =>
        refine ⟨{ c with newConnectionMsgSent := true }, ?_⟩
        dsimp only
        split_ifs <;> exact ⟨rfl, .inr ⟨by simpa using hsent, rfl, rfl⟩⟩

/-- The scan for new connections takes the turns one after the other. -/
theorem scan_keeps {Q : SwitchboxShared → Prop} (hannounce : ∀ s i, Q s → Q (s.announceAt i))
    (ix : ℤ) (scan : ServiceScan) (rest : List SwitchboxClient)
    (hlength : scan.clients.length + rest.length = s.list.length)
    (hQ : Q (s.withClients (scan.clients ++ rest) scan.outgoing)) :
    (rest.foldl (ServiceScan.visit ix) scan).clients.length = s.list.length ∧
      Q (s.withClients (rest.foldl (ServiceScan.visit ix) scan).clients
        (rest.foldl (ServiceScan.visit ix) scan).outgoing) := by
  induction rest generalizing scan with
  | nil => exact ⟨by simpa using hlength, by simpa using hQ⟩
  | cons c rest ih =>
      have hi : scan.clients.length < s.list.length := by
        rw [List.length_cons] at hlength
        omega
      obtain ⟨c', hclients, hturn⟩ := visit_eq ix scan c
      rw [List.foldl_cons]
      refine ih _ ?_ ?_
      · rw [hclients, List.length_append, List.length_singleton]
        rw [List.length_cons] at hlength
        omega
      rw [hclients, List.append_assoc, List.singleton_append]
      rcases hturn with ⟨rfl, houtgoing⟩ | ⟨hsent, rfl, hstore⟩
      · rw [houtgoing]
        exact hQ
      · have hset := withClients_set (s := s) (scan.clients ++ c :: rest)
          (scan.visit ix c).outgoing { c with newConnectionMsgSent := true } (List.getElem?_eq_getElem hi)
        rw [List.set_append_right _ _ (Nat.le_refl _), Nat.sub_self, List.set_cons_zero] at hset
        have hnext := hannounce _ scan.clients.length hQ
        have hat : (s.withClients (scan.clients ++ c :: rest) scan.outgoing).list[
            scan.clients.length]? = some { s.list[scan.clients.length] with
              toSwitchboxClient := c } := by
          rw [withClients_getElem?, List.getElem?_eq_getElem hi,
            List.getElem?_append_right (Nat.le_refl _), Nat.sub_self, List.getElem?_cons_zero]
        rw [announceAt, hat] at hnext
        dsimp only at hnext
        rw [if_neg (by simp [hsent])] at hnext
        change Q (match storeMsgHeaderToRingbuf scan.outgoing c.clientId
          iocSwitchboxNewConnection with
          | none => _
          | some outgoing => _) at hnext
        rw [hstore] at hnext
        simp only [withClients] at hset hnext ⊢
        rw [hset]
        exact hnext

theorem selectConnection_keeps {Q : SwitchboxShared → Prop}
    (hannounce : ∀ s i, Q s → Q (s.announceAt i)) (hQ : Q s) :
    (selectConnection s.server).1.clients.length = s.list.length ∧
      Q (s.withClients (selectConnection s.server).1.clients
        (selectConnection s.server).1.outgoing) := by
  have hscan := scan_keeps (s := s) hannounce (osInt (s.server.currentIx + 1))
    ⟨[], s.server.outgoing, none⟩ s.server.clients
    (by simp [server]) (by
      rw [List.nil_append]
      exact withClients_self ▸ hQ)
  unfold selectConnection
  dsimp only
  split
  · exact hscan
  · split <;> exact hscan

/-! ## One turn -/

/-- A client which is served gives the first of its bytes, with their number in front. -/
theorem serveAt_spec (ready : SwitchboxClient → Bool) (hspace : sboxHdrSize + 1 ≤ s.outgoing.space) :
    s.serveAt ready i = s ∨
      ∃ c n outgoing, s.list[i]? = some c ∧ ready c.toSwitchboxClient = true ∧ 0 < n ∧
        n ≤ c.incoming.bytes.length ∧ n ≤ s.outgoing.capacity ∧
        outgoing.capacity = s.outgoing.capacity ∧
        outgoing.bytes = s.outgoing.bytes ++ (msgHeader c.clientId n ++ c.incoming.bytes.take n) ∧
        s.serveAt ready i =
          { s with
            list := s.list.set i { c with incoming := c.incoming.drop n }
            outgoing := outgoing } := by
  unfold serveAt
  cases hc : s.list[i]? with
  | none => exact .inl rfl
  | some c =>
      dsimp only
      split_ifs with hskip
      · exact .inl rfl
      · right
        simp only [Bool.or_eq_true, Bool.not_eq_true', not_or, Bool.not_eq_false,
          List.isEmpty_iff] at hskip
        obtain ⟨hready, hne⟩ := hskip
        have hpos : 0 < c.incoming.bytes.length := List.length_pos_iff.mpr hne
        have hstored : ∀ n : ℤ, storeMsgHeaderToRingbuf s.outgoing c.clientId n =
            some (s.outgoing.put (msgHeader c.clientId n)) := by
          intro n
          rw [storeMsgHeaderToRingbuf, if_neg (by omega)]
        generalize hn : min c.incoming.bytes.length (s.outgoing.space - sboxHdrSize) = n
        obtain ⟨hbytes, -⟩ := storeMsgHeader_bytes (hstored n)
        have hroom : n ≤ (s.outgoing.put (msgHeader c.clientId n)).space := by
          rw [ServeState.space_put, ServeState.length_msgHeader]
          omega
        have hmove : switchboxRingbufMove (s.outgoing.put (msgHeader c.clientId n)) c.incoming n =
            ((s.outgoing.put (msgHeader c.clientId n)).put (c.incoming.bytes.take n),
              c.incoming.drop n) := by
          rw [switchboxRingbufMove, Nat.min_eq_left (show n ≤ c.incoming.bytes.length by omega),
            Nat.min_eq_left hroom]
        rw [hstored, Option.getD_some, hmove]
        refine ⟨c, n, (s.outgoing.put (msgHeader c.clientId n)).put (c.incoming.bytes.take n), rfl,
          hready, ?_, by omega, ?_, rfl, ?_, rfl⟩
        · unfold sboxHdrSize at hspace hn
          omega
        · have hle : s.outgoing.space ≤ s.outgoing.capacity := Nat.sub_le _ _
          omega
        · change (s.outgoing.put (msgHeader c.clientId n)).bytes ++
            (c.incoming.bytes.take n).take _ = _
          rw [hbytes, List.append_assoc, List.take_of_length_le (i := OsalRingBuf.space _)]
          exact (List.length_take_le _ _).trans hroom

/-- A client which is announced has not been announced before. -/
theorem announceAt_spec :
    s.announceAt i = s ∨
      ∃ c outgoing, s.list[i]? = some c ∧ c.newConnectionMsgSent = false ∧
        outgoing.capacity = s.outgoing.capacity ∧
        outgoing.bytes = s.outgoing.bytes ++ msgHeader c.clientId iocSwitchboxNewConnection ∧
        s.announceAt i =
          { s with
            list := s.list.set i { c with newConnectionMsgSent := true }
            outgoing := outgoing } := by
  unfold announceAt
  cases hc : s.list[i]? with
  | none => exact .inl rfl
  | some c =>
      dsimp only
      split_ifs with hsent
      · exact .inl rfl
      · cases hstore : storeMsgHeaderToRingbuf s.outgoing c.clientId
            iocSwitchboxNewConnection with
        | none => exact .inl rfl
        | some outgoing =>
            obtain ⟨hbytes, hcapacity⟩ := storeMsgHeader_bytes hstore
            exact .inr ⟨c, outgoing, rfl, by simpa using hsent, hcapacity, hbytes, rfl⟩

/-! ## The message which is received -/

/-- A part of the message goes to the client for which it is, or away. -/
theorem moveData_spec {skipData : OsalRingBuf → ℕ → OsalRingBuf}
    (hskip : ∀ r n, n ≤ r.bytes.length → skipData r n = r.drop n)
    (present : SwitchboxEntry → Bool) (s : SwitchboxShared) :
    s.moveData skipData present = s ∨
      ∃ n ≤ s.incomingBytes, n ≤ s.incoming.bytes.length ∧ 0 < s.incomingBytes ∧
        ((∃ i c outgoing, s.list[i]? = some c ∧ present c = true ∧
            c.clientId = s.incomingClientId ∧
            outgoing.bytes = c.outgoing.bytes ++ s.incoming.bytes.take n ∧
            s.moveData skipData present =
              { s with
                list := s.list.set i { c with outgoing := outgoing }
                incoming := s.incoming.drop n
                incomingBytes := s.incomingBytes - n }) ∨
          ((∀ c ∈ s.list, present c = true → c.clientId ≠ s.incomingClientId) ∧
            s.moveData skipData present =
              { s with
                incoming := s.incoming.drop n
                incomingBytes := s.incomingBytes - n
                outgoing :=
                  if s.incomingBytes - n = 0 then
                    (storeMsgHeaderToRingbuf s.outgoing s.incomingClientId
                      iocSwitchboxConnectionDropped).getD s.outgoing
                  else s.outgoing })) := by
  unfold moveData
  split_ifs with hzero
  · exact .inl rfl
  have hpos : 0 < s.incomingBytes := Nat.pos_of_ne_zero hzero
  dsimp only
  split
  next i hfind =>
      obtain ⟨hi, hfound, -⟩ := List.findIdx?_eq_some_iff_getElem.mp hfind
      rw [Bool.and_eq_true, beq_iff_eq] at hfound
      rw [List.getElem?_eq_getElem hi]
      right
      generalize hn : min (min s.incoming.bytes.length s.incomingBytes) s.list[i].outgoing.space = n
      have hmove : switchboxRingbufMove s.list[i].outgoing s.incoming n =
          (s.list[i].outgoing.put (s.incoming.bytes.take n), s.incoming.drop n) := by
        rw [switchboxRingbufMove, Nat.min_eq_left (show n ≤ s.incoming.bytes.length by omega),
          Nat.min_eq_left (show n ≤ s.list[i].outgoing.space by omega)]
      have hput : (s.list[i].outgoing.put (s.incoming.bytes.take n)).bytes =
          s.list[i].outgoing.bytes ++ s.incoming.bytes.take n := by
        change _ ++ List.take _ _ = _
        rw [List.take_of_length_le]
        exact (List.length_take_le _ _).trans (by omega)
      refine ⟨n, by omega, by omega, hpos, .inl ⟨i, s.list[i], _, List.getElem?_eq_getElem hi,
        hfound.1, hfound.2, hput, ?_⟩⟩
      simp only [hn, hmove]
  next hfind =>
      split_ifs with hnone hlast
      · exact .inl rfl
      all_goals
        right
        refine ⟨_, Nat.min_le_right _ _, Nat.min_le_left _ _, hpos, .inr ⟨fun c hc hpresent hid => ?_,
          ?_⟩⟩
        · have habsent := List.findIdx?_eq_none_iff.mp hfind c hc
          simp [hpresent, hid] at habsent
      · rw [hskip _ _ (Nat.min_le_left _ _), if_pos hlast]
      · rw [hskip _ _ (Nat.min_le_left _ _), if_neg hlast]

end SwitchboxShared

end Iocom
