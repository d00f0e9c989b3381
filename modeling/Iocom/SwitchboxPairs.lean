import Iocom.SwitchboxLanes

/-!
# Both directions of the shared connection

A client is announced before anything is sent to its emulated socket, and the socket
answers only then; so a port of one direction opens before the other needs it.
-/

namespace Iocom

open KeyedChannel (Parcel Port openings)

/-- Both directions together.  The ports of `down` are the emulated sockets, those of
`up` the connections to the clients, which are present once they have been announced. -/
structure SwitchboxPair (issued : UInt16 → Prop) (down up : SwitchboxLane)
    (d u : SwitchboxChannel) : Prop where
  downward : down.Represents d
  upward : up.Represents u
  unannounced : ∀ k w, (k, w, false) ∈ up.ports → u.port k = .unopened
  announced : ∀ k, u.port k = .opened → d.port k = .unopened → k ∈ openings d.queue
  accepted : ∀ k, u.port k = .unopened → d.port k = .unopened ∧ k ∉ openings d.queue
  plain : openings u.queue = []
  silent : ∀ k, d.port k = .unopened → up.total k = []
  fresh : ∀ k, ¬issued k → down.total k = [] ∧ u.port k = .unopened
  waiting_issued : ∀ k ∈ down.waiting.map Prod.fst, issued k
  ports_issued : ∀ k ∈ up.ports.map Prod.fst, issued k

namespace SwitchboxPair

variable {issued : UInt16 → Prop} {down up down' up' : SwitchboxLane}
  {d u d' u' : SwitchboxChannel} {i n : ℕ} {k : UInt16} {w data : List UInt8}

theorem congr (h : SwitchboxPair issued down up d u) (hdown : down'.Represents d')
    (hup : up'.Represents u') (hdport : d'.port = d.port)
    (hdqueue : openings d'.queue = openings d.queue) (huport : u'.port = u.port)
    (huqueue : openings u'.queue = openings u.queue)
    (hports : ∀ k w, (k, w, false) ∈ up'.ports → ∃ w, (k, w, false) ∈ up.ports)
    (hsilent : ∀ k, d.port k = .unopened → up'.total k = up.total k)
    (hfresh : ∀ k, ¬issued k → down'.total k = down.total k)
    (hwaiting : ∀ k ∈ down'.waiting.map Prod.fst, k ∈ down.waiting.map Prod.fst)
    (hissued : ∀ k ∈ up'.ports.map Prod.fst, k ∈ up.ports.map Prod.fst) :
    SwitchboxPair issued down' up' d' u' where
  downward := hdown
  upward := hup
  unannounced k w hmem := by
    obtain ⟨w', hmem'⟩ := hports k w hmem
    rw [huport]
    exact h.unannounced k w' hmem'
  announced k hu hd := by
    rw [hdqueue]
    exact h.announced k (huport ▸ hu) (hdport ▸ hd)
  accepted k hu := by
    rw [hdport, hdqueue]
    exact h.accepted k (huport ▸ hu)
  plain := huqueue.trans h.plain
  silent k hd := by
    rw [hdport] at hd
    rw [hsilent k hd]
    exact h.silent k hd
  fresh k hk := by
    rw [hfresh k hk, huport]
    exact h.fresh k hk
  waiting_issued k hk := h.waiting_issued k (hwaiting k hk)
  ports_issued k hk := h.ports_issued k (hissued k hk)

/-- A change of the lane to the sockets which opens or closes nothing. -/
theorem congr_down (h : SwitchboxPair issued down up d u) (hdown : down'.Represents d')
    (hdport : d'.port = d.port) (hdqueue : openings d'.queue = openings d.queue)
    (hfresh : ∀ k, ¬issued k → down'.total k = down.total k)
    (hwaiting : ∀ k ∈ down'.waiting.map Prod.fst, k ∈ down.waiting.map Prod.fst) :
    SwitchboxPair issued down' up d' u :=
  h.congr hdown h.upward hdport hdqueue rfl rfl (fun _ w hmem => ⟨w, hmem⟩) (fun _ _ => rfl)
    hfresh hwaiting (fun _ hk => hk)

/-- A change of the lane to the clients which opens or closes nothing. -/
theorem congr_up (h : SwitchboxPair issued down up d u) (hup : up'.Represents u')
    (huport : u'.port = u.port) (huqueue : openings u'.queue = openings u.queue)
    (hports : ∀ k w, (k, w, false) ∈ up'.ports → ∃ w, (k, w, false) ∈ up.ports)
    (hsilent : ∀ k, d.port k = .unopened → up'.total k = up.total k)
    (hissued : ∀ k ∈ up'.ports.map Prod.fst, k ∈ up.ports.map Prod.fst) :
    SwitchboxPair issued down up' d u' :=
  h.congr h.downward hup rfl rfl huport huqueue hports hsilent (fun _ _ => rfl) (fun _ hk => hk)
    hissued

/-! ## The lane to the sockets -/

theorem clientRead (h : SwitchboxPair issued down up d u) (data : List UInt8)
    (hi : down.waiting[i]? = some (k, w)) :
    SwitchboxPair issued
      { down with
        total := SwitchboxNet.addBytes down.total k data
        waiting := down.waiting.set i (k, w ++ data) } up d u := by
  have hfst : (k, w ++ data).1 = (k, w).1 := rfl
  have hk : issued k := h.waiting_issued k (List.mem_map_of_mem (List.mem_of_getElem? hi))
  refine h.congr_down (h.downward.gather hi) rfl rfl (fun j hj => ?_) (fun j hj => ?_)
  · exact Function.update_of_ne (fun hjk : j = k => hj (hjk ▸ hk)) _ _
  · rw [Registry.map_key_set hi hfst] at hj
    exact hj

theorem socketRead (h : SwitchboxPair issued down up d u) {present : Bool}
    (hi : down.ports[i]? = some (k, w, present)) :
    SwitchboxPair issued
      { down with
        taken := SwitchboxNet.addBytes down.taken k (w.take n)
        ports := down.ports.set i (k, w.drop n, present) } up d u :=
  h.congr_down (h.downward.give hi) rfl rfl (fun _ _ => rfl) (fun _ hk => hk)

/-- Data of a client is sent, once the client has been announced. -/
theorem serveClient (h : SwitchboxPair issued down up d u)
    (hi : down.waiting[i]? = some (k, w)) (hpos : 0 < n) (hle : n ≤ w.length)
    (hn : n < 0x80000000) (hk : u.port k = .opened) :
    SwitchboxPair issued
      { down with
        waiting := down.waiting.set i (k, w.drop n)
        bytes := down.bytes ++ (msgHeader k n ++ w.take n) } up (d.send k (w.take n)) u := by
  have hfst : (k, w.drop n).1 = (k, w).1 := rfl
  refine h.congr_down (h.downward.send hi hpos hle hn (h.announced k hk)) rfl ?_ (fun _ _ => rfl)
    (fun j hj => ?_)
  · simp [KeyedChannel.send, openings]
  · rw [Registry.map_key_set hi hfst] at hj
    exact hj

/-- A client is announced, and can be written to from then on. -/
theorem announce (h : SwitchboxPair issued down up d u)
    (hi : up.ports[i]? = some (k, w, false)) :
    SwitchboxPair issued
      { down with bytes := down.bytes ++ msgHeader k iocSwitchboxNewConnection }
      { up with ports := up.ports.set i (k, w, true) } (d.announce k) (u.openPort k) := by
  have hk := h.unannounced k w (List.mem_of_getElem? hi)
  obtain ⟨hd, hnew⟩ := h.accepted k hk
  have hplain : k ∉ openings u.queue := by simp [h.plain]
  refine ⟨h.downward.announce hd hnew, h.upward.openPort hi hk hplain, fun j v hmem => ?_,
    fun j hu hd => ?_, fun j hu => ?_, h.plain, h.silent, fun j hj => ?_, h.waiting_issued, ?_⟩
  · rcases Registry.mem_set h.upward.portKeys hi (show (k, w, true).1 = k from rfl) hmem with
      heq | ⟨hold, hne⟩
    · simp at heq
    · have hu := h.unannounced j v hold
      simpa [KeyedChannel.openPort, show j ≠ k from hne] using hu
  · rw [KeyedChannel.announce, KeyedChannel.openings_append, List.mem_append]
    obtain rfl | hjk := eq_or_ne j k
    · exact .inr (by simp [openings])
    · exact .inl (h.announced j (by simpa [KeyedChannel.openPort, hjk] using hu) hd)
  · obtain rfl | hjk := eq_or_ne j k
    · simp [KeyedChannel.openPort] at hu
    · obtain ⟨hd', hj⟩ := h.accepted j (by simpa [KeyedChannel.openPort, hjk] using hu)
      refine ⟨hd', ?_⟩
      rw [KeyedChannel.announce, KeyedChannel.openings_append, List.mem_append]
      simp [openings, hj, hjk]
  · obtain ⟨htotal, hu⟩ := h.fresh j hj
    have hjk : j ≠ k := fun hjk => hj (hjk ▸ h.ports_issued k
      (List.mem_map_of_mem (List.mem_of_getElem? hi)))
    exact ⟨htotal, by simpa [KeyedChannel.openPort, hjk] using hu⟩
  · rw [Registry.map_key_set hi (show (k, w, true).1 = k from rfl)]
    exact h.ports_issued

/-- A control code which opens nothing is sent to the sockets. -/
theorem putDown (h : SwitchboxPair issued down up d u) {code : ℤ}
    (hcode : code = iocSwitchboxConnectionDropped ∨ code = iocSwitchboxKeepalive) :
    SwitchboxPair issued { down with bytes := down.bytes ++ msgHeader k code } up
      (d.put (k, code)) u :=
  h.congr_down (h.downward.put hcode) rfl (by simp [KeyedChannel.put, openings])
    (fun _ _ => rfl) (fun _ hk => hk)

/-- The part of a message which has come goes to its socket, or is lost. -/
theorem deliverDown (h : SwitchboxPair issued down up d u) {bytes : List UInt8} {missing : ℕ}
    {ports : List (UInt16 × List UInt8 × Bool)}
    (hdown : { down with bytes := bytes, missing := missing, ports := ports }.Represents
      (d.deliver n)) :
    SwitchboxPair issued { down with bytes := bytes, missing := missing, ports := ports } up
      (d.deliver n) u :=
  h.congr_down hdown rfl rfl (fun _ _ => rfl) (fun _ hk => hk)

variable {queue : List SwitchboxParcel}

theorem takeContentDown (h : SwitchboxPair issued down up d u) (hmissing : down.missing = 0)
    (hqueue : d.queue = .content k data :: queue) :
    SwitchboxPair issued
      { down with bytes := down.bytes.drop sboxHdrSize, missing := data.length, target := k }
      up d.take u :=
  h.congr_down (h.downward.takeContent hmissing hqueue)
    (by rw [KeyedChannel.take, hqueue]) (by rw [KeyedChannel.take, hqueue]; rfl)
    (fun _ _ => rfl) (fun _ hk => hk)

theorem takeNoteDown (h : SwitchboxPair issued down up d u) (hmissing : down.missing = 0)
    {n : UInt16 × ℤ} (hqueue : d.queue = .note n :: queue) :
    SwitchboxPair issued { down with bytes := down.bytes.drop sboxHdrSize } up d.take u :=
  h.congr_down (h.downward.takeNote hmissing hqueue)
    (by rw [KeyedChannel.take, hqueue]) (by rw [KeyedChannel.take, hqueue]; rfl)
    (fun _ _ => rfl) (fun _ hk => hk)

/-- What changes when a port to a socket opens whose announcement has come, or closes. -/
theorem setPortDown (h : SwitchboxPair issued down up d u) (hdown : down'.Represents d')
    (hup : up'.Represents u) (hqueue : openings d.queue = k :: openings d'.queue)
    (hport : ∃ p, p ≠ Port.unopened ∧ d'.port = Function.update d.port k p)
    (htotal : down'.total = down.total) (hwaiting : down'.waiting = down.waiting)
    (hup' : up'.total = up.total ∧ up'.ports = up.ports) :
    SwitchboxPair issued down' up' d' u := by
  obtain ⟨p, hp, hport⟩ := hport
  obtain ⟨htotal', hports⟩ := hup'
  have honce := h.downward.consistent.once
  rw [hqueue, List.nodup_cons] at honce
  refine ⟨hdown, hup, fun j v hmem => ?_, fun j hu hd => ?_, fun j hu => ?_, h.plain,
    fun j hd => ?_, fun j hj => ?_, ?_, ?_⟩
  · rw [hports] at hmem
    exact h.unannounced j v hmem
  · rw [hport] at hd
    obtain rfl | hjk := eq_or_ne j k
    · rw [Function.update_self] at hd
      exact absurd hd hp
    · rw [Function.update_of_ne hjk] at hd
      have hmem := h.announced j hu hd
      rw [hqueue] at hmem
      exact (List.mem_cons.mp hmem).resolve_left hjk
  · obtain ⟨hd, hnew⟩ := h.accepted j hu
    rw [hqueue, List.mem_cons, not_or] at hnew
    rw [hport, Function.update_of_ne hnew.1]
    exact ⟨hd, hnew.2⟩
  · rw [hport] at hd
    rw [htotal']
    obtain rfl | hjk := eq_or_ne j k
    · rw [Function.update_self] at hd
      exact absurd hd hp
    · rw [Function.update_of_ne hjk] at hd
      exact h.silent j hd
  · rw [htotal]
    exact h.fresh j hj
  · rw [hwaiting]
    exact h.waiting_issued
  · rw [hports]
    exact h.ports_issued

theorem takeOpening (h : SwitchboxPair issued down up d u) (hmissing : down.missing = 0)
    (hqueue : d.queue = .opening k :: queue) (hnew : k ∉ down.ports.map Prod.fst)
    (hwaiting : k ∉ up.waiting.map Prod.fst) :
    SwitchboxPair issued
      { down with
        bytes := down.bytes.drop sboxHdrSize
        ports := down.ports ++ [(k, [], true)] }
      { up with waiting := up.waiting ++ [(k, [])] } d.take u := by
  have hk : d.port k = .unopened :=
    h.downward.consistent.fresh k (by rw [hqueue]; exact List.mem_cons_self ..)
  have htake : d.take = { d with queue := queue, port := Function.update d.port k .opened } := by
    rw [KeyedChannel.take, hqueue]
  refine h.setPortDown (k := k) (h.downward.takeOpening hmissing hqueue hnew)
    (h.upward.join (h.silent k hk) hwaiting) ?_ ⟨.opened, by decide, ?_⟩ rfl rfl ⟨rfl, rfl⟩
  · rw [htake, hqueue]
    rfl
  · rw [htake]

theorem takeOpeningLost (h : SwitchboxPair issued down up d u) (hmissing : down.missing = 0)
    (hqueue : d.queue = .opening k :: queue) :
    SwitchboxPair issued { down with bytes := down.bytes.drop sboxHdrSize } up
      (d.take.closePort k) u := by
  have htake : d.take = { d with queue := queue, port := Function.update d.port k .opened } := by
    rw [KeyedChannel.take, hqueue]
  refine h.setPortDown (k := k) (h.downward.takeOpeningLost hmissing hqueue) h.upward ?_
    ⟨.closed, by decide, ?_⟩ rfl rfl ⟨rfl, rfl⟩
  · rw [htake, hqueue]
    rfl
  · rw [htake]
    simp [KeyedChannel.closePort]

theorem close (h : SwitchboxPair issued down up d u) (hi : down.ports[i]? = some (k, w, true)) :
    SwitchboxPair issued { down with ports := down.ports.eraseIdx i }
      { up with waiting := up.waiting.eraseIdx i } (d.closePort k) u := by
  have hk : d.port k = .opened :=
    (h.downward.opened k).mpr ⟨w, List.mem_of_getElem? hi⟩
  have hother : ∀ j, (d.closePort k).port j = .unopened ↔ d.port j = .unopened := by
    intro j
    obtain rfl | hjk := eq_or_ne j k
    · simp [KeyedChannel.closePort, hk]
    · simp [KeyedChannel.closePort, hjk]
  exact
    { h with
      downward := h.downward.removePort hi
      upward := h.upward.leave i
      announced := fun j hu hd => h.announced j hu ((hother j).mp hd)
      accepted := fun j hu => ⟨(hother j).mpr (h.accepted j hu).1, (h.accepted j hu).2⟩
      silent := fun j hd => h.silent j ((hother j).mp hd) }

/-! ## The lane to the clients -/

theorem clientWrite (h : SwitchboxPair issued down up d u) {present : Bool}
    (hi : up.ports[i]? = some (k, w, present)) :
    SwitchboxPair issued down
      { up with
        taken := SwitchboxNet.addBytes up.taken k (w.take n)
        ports := up.ports.set i (k, w.drop n, present) } d u := by
  have hfst : (k, w.drop n, present).1 = k := rfl
  refine h.congr_up (h.upward.give hi) rfl rfl (fun j v hmem => ?_) (fun _ _ => rfl)
    (fun j hj => ?_)
  · rcases Registry.mem_set h.upward.portKeys hi hfst hmem with heq | ⟨hold, -⟩
    · simp only [Prod.mk.injEq] at heq
      exact ⟨w, by rw [heq.1, heq.2.2]; exact List.mem_of_getElem? hi⟩
    · exact ⟨v, hold⟩
  · rw [Registry.map_key_set hi hfst] at hj
    exact hj

theorem socketWrite (h : SwitchboxPair issued down up d u) (data : List UInt8)
    (hi : up.waiting[i]? = some (k, w)) (hk : d.port k = .opened) :
    SwitchboxPair issued down
      { up with
        total := SwitchboxNet.addBytes up.total k data
        waiting := up.waiting.set i (k, w ++ data) } d u := by
  refine h.congr_up (h.upward.gather hi) rfl rfl (fun j v hmem => ⟨v, hmem⟩) (fun j hd => ?_)
    (fun _ hk => hk)
  refine Function.update_of_ne ?_ _ _
  rintro rfl
  rw [hk] at hd
  cases hd

theorem serveSocket (h : SwitchboxPair issued down up d u)
    (hi : up.waiting[i]? = some (k, w)) (hpos : 0 < n) (hle : n ≤ w.length)
    (hn : n < 0x80000000) (hk : d.port k = .opened) :
    SwitchboxPair issued down
      { up with
        waiting := up.waiting.set i (k, w.drop n)
        bytes := up.bytes ++ (msgHeader k n ++ w.take n) } d (u.send k (w.take n)) := by
  refine h.congr_up (h.upward.send hi hpos hle hn fun hu => ?_) rfl ?_
    (fun j v hmem => ⟨v, hmem⟩) (fun _ _ => rfl) (fun _ hk => hk)
  · rw [(h.accepted k hu).1] at hk
    cases hk
  · simp [KeyedChannel.send, openings]

theorem putUp (h : SwitchboxPair issued down up d u) {code : ℤ}
    (hcode : code = iocSwitchboxConnectionDropped ∨ code = iocSwitchboxKeepalive) :
    SwitchboxPair issued down { up with bytes := up.bytes ++ msgHeader k code } d
      (u.put (k, code)) :=
  h.congr_up (h.upward.put hcode) rfl (by simp [KeyedChannel.put, openings])
    (fun _ v hmem => ⟨v, hmem⟩) (fun _ _ => rfl) (fun _ hk => hk)

theorem skipUp (h : SwitchboxPair issued down up d u) (hn : n ≤ up.missing)
    (hpos : 0 < up.missing) (habsent : ∀ w, (up.target, w, true) ∉ up.ports) :
    SwitchboxPair issued down
      { up with bytes := up.bytes.drop n, missing := up.missing - n } d (u.deliver n) :=
  h.congr_up (h.upward.skip hn hpos habsent) rfl rfl (fun _ v hmem => ⟨v, hmem⟩)
    (fun _ _ => rfl) (fun _ hk => hk)

theorem deliverUp (h : SwitchboxPair issued down up d u) (hn : n ≤ up.missing)
    (hpos : 0 < up.missing) (hi : up.ports[i]? = some (up.target, w, true)) :
    SwitchboxPair issued down
      { up with
        bytes := up.bytes.drop n
        missing := up.missing - n
        ports := up.ports.set i (up.target, w ++ up.bytes.take n, true) } d (u.deliver n) := by
  have hfst : (up.target, w ++ up.bytes.take n, true).1 = up.target := rfl
  refine h.congr_up (h.upward.deliver hn hpos hi) rfl rfl (fun j v hmem => ?_) (fun _ _ => rfl)
    (fun j hj => ?_)
  · rcases Registry.mem_set h.upward.portKeys hi hfst hmem with heq | ⟨hold, -⟩
    · simp at heq
    · exact ⟨v, hold⟩
  · rw [Registry.map_key_set hi hfst] at hj
    exact hj

theorem takeContentUp (h : SwitchboxPair issued down up d u) (hmissing : up.missing = 0)
    (hqueue : u.queue = .content k data :: queue) :
    SwitchboxPair issued down
      { up with bytes := up.bytes.drop sboxHdrSize, missing := data.length, target := k }
      d u.take :=
  h.congr_up (h.upward.takeContent hmissing hqueue)
    (by rw [KeyedChannel.take, hqueue]) (by rw [KeyedChannel.take, hqueue]; rfl)
    (fun _ v hmem => ⟨v, hmem⟩) (fun _ _ => rfl) (fun _ hk => hk)

theorem takeNoteUp (h : SwitchboxPair issued down up d u) (hmissing : up.missing = 0)
    {n : UInt16 × ℤ} (hqueue : u.queue = .note n :: queue) :
    SwitchboxPair issued down { up with bytes := up.bytes.drop sboxHdrSize } d u.take :=
  h.congr_up (h.upward.takeNote hmissing hqueue)
    (by rw [KeyedChannel.take, hqueue]) (by rw [KeyedChannel.take, hqueue]; rfl)
    (fun _ v hmem => ⟨v, hmem⟩) (fun _ _ => rfl) (fun _ hk => hk)

theorem queueUp_ne (h : SwitchboxPair issued down up d u) :
    u.queue ≠ .opening k :: queue := by
  intro hqueue
  have hplain := h.plain
  rw [hqueue] at hplain
  cases hplain

/-! ## Clients come and go -/

theorem connect (h : SwitchboxPair issued down up d u) (hk : ¬issued k)
    {issued' : UInt16 → Prop} (hissued : ∀ j, issued' j ↔ issued j ∨ j = k) :
    SwitchboxPair issued' { down with waiting := down.waiting ++ [(k, [])] }
      { up with ports := up.ports ++ [(k, [], false)] } d u := by
  obtain ⟨htotal, hu⟩ := h.fresh k hk
  exact
    { h with
      downward := h.downward.join htotal fun hmem => hk (h.waiting_issued k hmem)
      upward := h.upward.addPort hu fun hmem => hk (h.ports_issued k hmem)
      unannounced := fun j v hmem => by
        rcases List.mem_append.mp hmem with hmem | hmem
        · exact h.unannounced j v hmem
        · simp only [List.mem_singleton, Prod.mk.injEq] at hmem
          rw [hmem.1]
          exact hu
      fresh := fun j hj => h.fresh j fun hold => hj ((hissued j).mpr (.inl hold))
      waiting_issued := fun j hj => by
        rw [List.map_append, List.mem_append] at hj
        exact (hissued j).mpr (hj.imp (h.waiting_issued j) fun hj => by simpa using hj)
      ports_issued := fun j hj => by
        rw [List.map_append, List.mem_append] at hj
        exact (hissued j).mpr (hj.imp (h.ports_issued j) fun hj => by simpa using hj) }

theorem dropUnannounced (h : SwitchboxPair issued down up d u)
    (hi : up.ports[i]? = some (k, w, false)) :
    SwitchboxPair issued { down with waiting := down.waiting.eraseIdx i }
      { up with ports := up.ports.eraseIdx i } d u :=
  { h with
    downward := h.downward.leave i
    upward := h.upward.removeAbsent hi
    unannounced := fun j v hmem => h.unannounced j v ((List.eraseIdx_sublist _ i).subset hmem)
    waiting_issued := fun j hj => h.waiting_issued j
      (((List.eraseIdx_sublist _ i).map Prod.fst).subset hj)
    ports_issued := fun j hj => h.ports_issued j
      (((List.eraseIdx_sublist _ i).map Prod.fst).subset hj) }

theorem dropAnnounced (h : SwitchboxPair issued down up d u)
    (hi : up.ports[i]? = some (k, w, true)) :
    SwitchboxPair issued { down with waiting := down.waiting.eraseIdx i }
      { up with ports := up.ports.eraseIdx i } d (u.closePort k) := by
  have hk : u.port k = .opened := (h.upward.opened k).mpr ⟨w, List.mem_of_getElem? hi⟩
  have hother : ∀ j, (u.closePort k).port j = .unopened ↔ u.port j = .unopened := by
    intro j
    obtain rfl | hjk := eq_or_ne j k
    · simp [KeyedChannel.closePort, hk]
    · simp [KeyedChannel.closePort, hjk]
  exact
    { h with
      downward := h.downward.leave i
      upward := h.upward.removePort hi
      unannounced := fun j v hmem => (hother j).mpr
        (h.unannounced j v ((List.eraseIdx_sublist _ i).subset hmem))
      announced := fun j hu hd => by
        obtain rfl | hjk := eq_or_ne j k
        · simp [KeyedChannel.closePort] at hu
        · exact h.announced j (by simpa [KeyedChannel.closePort, hjk] using hu) hd
      accepted := fun j hu => h.accepted j ((hother j).mp hu)
      fresh := fun j hj => ⟨(h.fresh j hj).1, (hother j).mpr (h.fresh j hj).2⟩
      waiting_issued := fun j hj => h.waiting_issued j
        (((List.eraseIdx_sublist _ i).map Prod.fst).subset hj)
      ports_issued := fun j hj => h.ports_issued j
        (((List.eraseIdx_sublist _ i).map Prod.fst).subset hj) }

end SwitchboxPair

end Iocom
