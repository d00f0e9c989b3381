import Iocom.SwitchboxShared
import Iocom.SwitchboxTurns
import Iocom.Lib.KeyedChannel
import Iocom.Lib.Registry

/-!
# One direction of the shared connection

The bytes between the clients at one end and those at the other are the parcels of a
channel whose keys are the client ids.
-/

namespace Iocom

open KeyedChannel (Parcel Port openings)

abbrev SwitchboxChannel := KeyedChannel UInt16 UInt8 (UInt16 × ℤ)

abbrev SwitchboxParcel := Parcel UInt16 UInt8 (UInt16 × ℤ)

def encodeParcel : SwitchboxParcel → List UInt8
  | .content k data => msgHeader k data.length ++ data
  | .opening k => msgHeader k iocSwitchboxNewConnection
  | .note n => msgHeader n.1 n.2

def SendableParcel : SwitchboxParcel → Prop
  | .content _ data => 0 < data.length ∧ data.length < 0x80000000
  | .opening _ => True
  | .note n => n.2 = iocSwitchboxConnectionDropped ∨ n.2 = iocSwitchboxKeepalive

/-! ## Headers -/

theorem clientId_of_bytes (k : UInt16) :
    UInt16.ofNat ((UInt8.ofNat (k.toNat % 256)).toNat +
      256 * (UInt8.ofNat (k.toNat / 256)).toNat) = k := by
  have hk := k.toNat_lt
  rw [UInt8.toNat_ofNat', UInt8.toNat_ofNat', Nat.mod_eq_of_lt (show k.toNat % 256 < 2 ^ 8 by omega),
    Nat.mod_eq_of_lt (show k.toNat / 256 < 2 ^ 8 by omega), Nat.mod_add_div]
  exact UInt16.ofNat_toNat

theorem dataLen_of_bytes {len : ℤ} (hlow : -0x80000000 ≤ len) (hhigh : len < 0x80000000) :
    osInt (((UInt8.ofNat (len % 256).toNat).toNat : ℤ) +
      256 * ((UInt8.ofNat (len / 256 % 256).toNat).toNat : ℤ) +
      65536 * ((UInt8.ofNat (len / 65536 % 256).toNat).toNat : ℤ) +
      16777216 * ((UInt8.ofNat (len / 16777216 % 256).toNat).toNat : ℤ)) = len := by
  simp only [UInt8.toNat_ofNat']
  unfold osInt
  rw [Int.bmod_def]
  omega

theorem getMsgHeaderFromRingbuf_eq {r : OsalRingBuf} {k : UInt16} {len : ℤ}
    {tail more : List UInt8} (hlow : -0x80000000 ≤ len) (hhigh : len < 0x80000000)
    (hbytes : r.bytes ++ more = msgHeader k len ++ tail) (hsize : sboxHdrSize ≤ r.bytes.length) :
    getMsgHeaderFromRingbuf r = some (k, len, r.drop sboxHdrSize) := by
  have htake : r.bytes.take sboxHdrSize = msgHeader k len := by
    rw [← List.take_append_of_le_length hsize, hbytes]
    rfl
  unfold getMsgHeaderFromRingbuf
  rw [htake]
  simp only [msgHeader, clientId_of_bytes, dataLen_of_bytes hlow hhigh]

theorem getMsgHeaderFromRingbuf_none {r : OsalRingBuf} (hsize : r.bytes.length < sboxHdrSize) :
    getMsgHeaderFromRingbuf r = none := by
  unfold getMsgHeaderFromRingbuf
  split
  next h =>
      have hlength := congrArg List.length h
      simp only [List.length_take, List.length_cons, List.length_nil, sboxHdrSize] at hlength
      unfold sboxHdrSize at hsize
      omega
  next => rfl

theorem storeMsgHeader_bytes {r r' : OsalRingBuf} {k : UInt16} {len : ℤ}
    (h : storeMsgHeaderToRingbuf r k len = some r') :
    r'.bytes = r.bytes ++ msgHeader k len ∧ r'.capacity = r.capacity := by
  unfold storeMsgHeaderToRingbuf at h
  split_ifs at h with hspace
  obtain rfl := Option.some.inj h
  have hfits : (msgHeader k len).length ≤ r.space := by
    rw [ServeState.length_msgHeader]
    omega
  simp [OsalRingBuf.put, List.take_of_length_le hfits]

/-! ## Lanes -/

/-- What concerns one direction: the bytes from each client in all, those which wait at
the sending end, the bytes in between, what is missing of the message which is received
and for whom it is, the buffers at the receiving end with the ids of the clients and
whether they are present there, and the bytes which the clients have taken. -/
structure SwitchboxLane where
  total : UInt16 → List UInt8
  waiting : List (UInt16 × List UInt8)
  bytes : List UInt8
  missing : ℕ
  target : UInt16
  ports : List (UInt16 × List UInt8 × Bool)
  taken : UInt16 → List UInt8

structure SwitchboxLane.Represents (l : SwitchboxLane) (m : SwitchboxChannel) : Prop where
  consistent : m.Consistent
  bytes : l.bytes = m.rest ++ m.queue.flatMap encodeParcel
  sendable : ∀ p ∈ m.queue, SendableParcel p
  missing : l.missing = m.rest.length
  target : m.rest ≠ [] → m.target = l.target
  waitingKeys : (l.waiting.map Prod.fst).Nodup
  portKeys : (l.ports.map Prod.fst).Nodup
  sent : ∀ k, m.sent k <+: l.total k
  waiting : ∀ p ∈ l.waiting, l.total p.1 = m.sent p.1 ++ p.2
  taken : ∀ k, l.taken k <+: m.received k
  ports : ∀ p ∈ l.ports, m.received p.1 = l.taken p.1 ++ p.2.1
  opened : ∀ k, m.port k = .opened ↔ ∃ w, (k, w, true) ∈ l.ports

namespace SwitchboxLane.Represents

variable {l : SwitchboxLane} {m : SwitchboxChannel} {i n : ℕ} {k : UInt16}
  {w data : List UInt8} {present : Bool}

/-- Nobody gets anything else than what came from his client. -/
theorem taken_prefix (h : l.Represents m) (k : UInt16) : l.taken k <+: l.total k :=
  ((h.taken k).trans (h.consistent.received_prefix k)).trans (h.sent k)

/-- A client which waits for nothing has got everything, when nothing is on its way. -/
theorem taken_all (h : l.Represents m) (hbytes : l.bytes = []) (hwaiting : (k, []) ∈ l.waiting)
    (hport : (k, [], true) ∈ l.ports) : l.taken k = l.total k := by
  have hnothing := h.bytes
  rw [hbytes] at hnothing
  obtain ⟨hrest, hqueue⟩ := List.append_eq_nil_iff.mp hnothing.symm
  have hempty : m.queue = [] := by
    cases hm : m.queue with
    | nil => rfl
    | cons p queue =>
        rw [hm, List.flatMap_cons] at hqueue
        cases p <;> simp [encodeParcel, msgHeader] at hqueue
  have hreceived := h.consistent.received_all ((h.opened k).mpr ⟨[], hport⟩) hempty hrest
  have hsent := h.waiting _ hwaiting
  have htaken := h.ports _ hport
  rw [List.append_nil] at hsent htaken
  rw [hsent, ← hreceived, htaken]

theorem total_ne_nil (h : l.Represents m) (hmem : .content k data ∈ m.queue) :
    l.total k ≠ [] := by
  obtain ⟨hpos, -⟩ : 0 < data.length ∧ _ := h.sendable (.content k data) hmem
  obtain ⟨p, hp⟩ := List.exists_mem_of_length_pos hpos
  exact List.ne_nil_of_mem ((h.sent k).subset (h.consistent.mem_sent hmem hp))

theorem present_iff {ports : List (UInt16 × List UInt8 × Bool)}
    (hi : ports[i]? = some (k, w, present)) (hkeys : (ports.map Prod.fst).Nodup) :
    (∃ w, (k, w, true) ∈ ports) ↔ present = true := by
  constructor
  · rintro ⟨w', hmem⟩
    have hsame := List.inj_on_of_nodup_map hkeys hmem (List.mem_of_getElem? hi) rfl
    simp only [Prod.mk.injEq] at hsame
    exact hsame.2.2.symm
  · rintro rfl
    exact ⟨w, List.mem_of_getElem? hi⟩

theorem present_set {ports : List (UInt16 × List UInt8 × Bool)} {w' : List UInt8}
    {present' : Bool} (hi : ports[i]? = some (k, w, present)) (hkeys : (ports.map Prod.fst).Nodup)
    {j : UInt16} : (∃ v, (j, v, true) ∈ ports.set i (k, w', present')) ↔
      if j = k then present' = true else ∃ v, (j, v, true) ∈ ports := by
  have hfst : (k, w', present').1 = (k, w, present).1 := rfl
  split_ifs with hj
  · subst hj
    refine present_iff (i := i) (show _ = some (j, w', present') from ?_) ?_
    · rw [List.getElem?_set_self (List.getElem?_eq_some_iff.mp hi).1]
    · rw [Registry.map_key_set hi hfst]
      exact hkeys
  · constructor
    · rintro ⟨v, hv⟩
      rcases Registry.mem_set hkeys hi hfst hv with heq | ⟨hold, -⟩
      · exact absurd (congrArg Prod.fst heq) hj
      · exact ⟨v, hold⟩
    · rintro ⟨v, hv⟩
      exact ⟨v, Registry.mem_set_of_ne Prod.fst hi hv hj⟩

/-! ### The sending end -/

theorem gather (h : l.Represents m) (hi : l.waiting[i]? = some (k, w)) :
    { l with
      total := SwitchboxNet.addBytes l.total k data
      waiting := l.waiting.set i (k, w ++ data) }.Represents m :=
  { h with
    waitingKeys := by
      rw [Registry.map_key_set hi (show (k, w ++ data).1 = k from rfl)]
      exact h.waitingKeys
    sent := fun j => by
      obtain rfl | hj := eq_or_ne j k
      · simp only [SwitchboxNet.addBytes, Function.update_self]
        exact (h.sent j).trans (List.prefix_append _ _)
      · simp only [SwitchboxNet.addBytes, Function.update_of_ne hj]
        exact h.sent j
    waiting := fun p hp => by
      rcases Registry.mem_set h.waitingKeys hi (show (k, w ++ data).1 = k from rfl) hp with
        rfl | ⟨hmem, hne⟩
      · simp only [SwitchboxNet.addBytes, Function.update_self]
        rw [h.waiting _ (List.mem_of_getElem? hi), List.append_assoc]
      · simp only [SwitchboxNet.addBytes, Function.update_of_ne hne]
        exact h.waiting p hmem }

theorem join (h : l.Represents m) (htotal : l.total k = []) (hnew : k ∉ l.waiting.map Prod.fst) :
    { l with waiting := l.waiting ++ [(k, [])] }.Represents m :=
  { h with
    waitingKeys := by
      rw [List.map_append]
      exact List.nodup_append.mpr ⟨h.waitingKeys, by simp, fun a ha b hb hab => by
        obtain rfl : b = k := by simpa using hb
        exact hnew (hab ▸ ha)⟩
    waiting := fun p hp => by
      rcases List.mem_append.mp hp with hp | hp
      · exact h.waiting p hp
      · obtain rfl := List.mem_singleton.mp hp
        have hsent := h.sent k
        rw [htotal, List.prefix_nil] at hsent
        simp [htotal, hsent] }

theorem leave (h : l.Represents m) (i : ℕ) :
    { l with waiting := l.waiting.eraseIdx i }.Represents m :=
  { h with
    waitingKeys := ((List.eraseIdx_sublist _ i).map Prod.fst).nodup h.waitingKeys
    waiting := fun p hp => h.waiting p ((List.eraseIdx_sublist _ i).subset hp) }

theorem append (h : l.Represents m) {m' : SwitchboxChannel} {p : SwitchboxParcel}
    {waiting : List (UInt16 × List UInt8)} (hm' : m'.Consistent) (hp : SendableParcel p)
    (hsame : m' = { m with sent := m'.sent, queue := m.queue ++ [p] })
    (hkeys : waiting.map Prod.fst = l.waiting.map Prod.fst)
    (hsent : ∀ k, m'.sent k <+: l.total k)
    (hwaiting : ∀ p ∈ waiting, l.total p.1 = m'.sent p.1 ++ p.2) :
    { l with waiting := waiting, bytes := l.bytes ++ encodeParcel p }.Represents m' := by
  have hqueue : m'.queue = m.queue ++ [p] := by rw [hsame]
  have hrest : m'.rest = m.rest := by rw [hsame]
  have htarget : m'.target = m.target := by rw [hsame]
  have hreceived : m'.received = m.received := by rw [hsame]
  have hport : m'.port = m.port := by rw [hsame]
  refine ⟨hm', ?_, ?_, ?_, ?_, ?_, h.portKeys, hsent, hwaiting, ?_, ?_, ?_⟩
  · simp [h.bytes, hrest, hqueue]
  · intro q hq
    rw [hqueue, List.mem_append, List.mem_singleton] at hq
    rcases hq with hq | rfl
    · exact h.sendable q hq
    · exact hp
  · rw [hrest]
    exact h.missing
  · rw [hrest, htarget]
    exact h.target
  · dsimp only
    rw [hkeys]
    exact h.waitingKeys
  · rw [hreceived]
    exact h.taken
  · rw [hreceived]
    exact h.ports
  · rw [hport]
    exact h.opened

theorem send (h : l.Represents m) (hi : l.waiting[i]? = some (k, w)) (hpos : 0 < n)
    (hle : n ≤ w.length) (hn : n < 0x80000000)
    (hk : m.port k = .unopened → k ∈ openings m.queue) :
    { l with
      waiting := l.waiting.set i (k, w.drop n)
      bytes := l.bytes ++ (msgHeader k n ++ w.take n) }.Represents (m.send k (w.take n)) := by
  have htotal := h.waiting _ (List.mem_of_getElem? hi)
  dsimp only at htotal
  have hlength : (w.take n).length = n := by simpa using hle
  have happend := h.append (p := .content k (w.take n))
    (show KeyedChannel.Consistent (m.send k (w.take n)) from h.consistent.send hk)
    ⟨by rw [hlength]; exact hpos, by rw [hlength]; exact hn⟩ rfl
    (Registry.map_key_set hi (show (k, w.drop n).1 = k from rfl)) ?_ ?_
  · rw [encodeParcel, hlength] at happend
    exact happend
  · intro j
    obtain rfl | hj := eq_or_ne j k
    · simp only [KeyedChannel.send, Function.update_self]
      rw [htotal]
      exact (List.prefix_append_right_inj _).mpr (List.take_prefix n w)
    · simp only [KeyedChannel.send, Function.update_of_ne hj]
      exact h.sent j
  · intro p hp
    rcases Registry.mem_set h.waitingKeys hi (show (k, w.drop n).1 = k from rfl) hp with
      rfl | ⟨hmem, hne⟩
    · simp only [KeyedChannel.send, Function.update_self]
      rw [htotal, List.append_assoc, List.take_append_drop]
    · simp only [KeyedChannel.send, Function.update_of_ne hne]
      exact h.waiting p hmem

theorem put (h : l.Represents m) {code : ℤ}
    (hcode : code = iocSwitchboxConnectionDropped ∨ code = iocSwitchboxKeepalive) :
    { l with bytes := l.bytes ++ msgHeader k code }.Represents (m.put (k, code)) :=
  h.append (p := .note (k, code)) (h.consistent.put _) hcode rfl rfl h.sent h.waiting

theorem announce (h : l.Represents m) (hk : m.port k = .unopened)
    (hnew : k ∉ openings m.queue) :
    { l with bytes := l.bytes ++ msgHeader k iocSwitchboxNewConnection }.Represents
      (m.announce k) :=
  h.append (p := .opening k) (h.consistent.announce hk hnew) trivial rfl rfl h.sent h.waiting

/-! ### The receiving end -/

theorem give (h : l.Represents m) (hi : l.ports[i]? = some (k, w, present)) :
    { l with
      taken := SwitchboxNet.addBytes l.taken k (w.take n)
      ports := l.ports.set i (k, w.drop n, present) }.Represents m :=
  { h with
    portKeys := by
      rw [Registry.map_key_set hi (show (k, w.drop n, present).1 = k from rfl)]
      exact h.portKeys
    taken := fun j => by
      obtain rfl | hj := eq_or_ne j k
      · simp only [SwitchboxNet.addBytes, Function.update_self]
        rw [h.ports _ (List.mem_of_getElem? hi)]
        exact (List.prefix_append_right_inj _).mpr (List.take_prefix n w)
      · simp only [SwitchboxNet.addBytes, Function.update_of_ne hj]
        exact h.taken j
    ports := fun p hp => by
      rcases Registry.mem_set h.portKeys hi (show (k, w.drop n, present).1 = k from rfl) hp with
        rfl | ⟨hmem, hne⟩
      · simp only [SwitchboxNet.addBytes, Function.update_self]
        rw [h.ports _ (List.mem_of_getElem? hi), List.append_assoc, List.take_append_drop]
      · simp only [SwitchboxNet.addBytes, Function.update_of_ne hne]
        exact h.ports p hmem
    opened := fun j => by
      rw [h.opened j, present_set hi h.portKeys]
      split_ifs with hj
      · rw [hj, present_iff hi h.portKeys]
      · rfl }

theorem addPort (h : l.Represents m) (hk : m.port k = .unopened)
    (hnew : k ∉ l.ports.map Prod.fst) :
    { l with ports := l.ports ++ [(k, [], false)] }.Represents m :=
  { h with
    portKeys := by
      rw [List.map_append]
      exact List.nodup_append.mpr ⟨h.portKeys, by simp, fun a ha b hb hab => by
        obtain rfl : b = k := by simpa using hb
        exact hnew (hab ▸ ha)⟩
    ports := fun p hp => by
      rcases List.mem_append.mp hp with hp | hp
      · exact h.ports p hp
      · obtain rfl := List.mem_singleton.mp hp
        have hreceived := (h.consistent.unopened k hk).received
        have htaken := h.taken k
        rw [hreceived, List.prefix_nil] at htaken
        simp [hreceived, htaken]
    opened := fun j => by
      rw [h.opened j]
      simp }

theorem openPort (h : l.Represents m) (hi : l.ports[i]? = some (k, w, false))
    (hk : m.port k = .unopened) (hnew : k ∉ openings m.queue) :
    { l with ports := l.ports.set i (k, w, true) }.Represents (m.openPort k) :=
  { h with
    consistent := h.consistent.openPort hk hnew
    portKeys := by
      rw [Registry.map_key_set hi (show (k, w, true).1 = k from rfl)]
      exact h.portKeys
    ports := fun p hp => by
      rcases Registry.mem_set h.portKeys hi (show (k, w, true).1 = k from rfl) hp with
        rfl | ⟨hmem, -⟩
      · exact h.ports (k, w, false) (List.mem_of_getElem? hi)
      · exact h.ports p hmem
    opened := fun j => by
      rw [present_set hi h.portKeys, ← h.opened j]
      split_ifs with hj
      · simp [KeyedChannel.openPort, hj]
      · simp [KeyedChannel.openPort, hj] }

theorem erasePort_iff (h : l.Represents m) (hi : l.ports[i]? = some (k, w, present)) {j : UInt16} :
    (∃ v, (j, v, true) ∈ l.ports.eraseIdx i) ↔ j ≠ k ∧ m.port j = .opened := by
  rw [h.opened j]
  constructor
  · rintro ⟨v, hmem⟩
    obtain ⟨hold, hne⟩ := Registry.mem_eraseIdx h.portKeys hi hmem
    exact ⟨hne, v, hold⟩
  · rintro ⟨hne, v, hmem⟩
    exact ⟨v, Registry.mem_eraseIdx_of_ne Prod.fst hi hmem hne⟩

theorem removeAbsent (h : l.Represents m) (hi : l.ports[i]? = some (k, w, false)) :
    { l with ports := l.ports.eraseIdx i }.Represents m :=
  { h with
    portKeys := ((List.eraseIdx_sublist _ i).map Prod.fst).nodup h.portKeys
    ports := fun p hp => h.ports p ((List.eraseIdx_sublist _ i).subset hp)
    opened := fun j => by
      rw [h.erasePort_iff hi]
      refine ⟨fun hopen => ⟨?_, hopen⟩, fun hboth => hboth.2⟩
      rintro rfl
      rw [h.opened j, present_iff hi h.portKeys] at hopen
      cases hopen }

theorem removePort (h : l.Represents m) (hi : l.ports[i]? = some (k, w, true)) :
    { l with ports := l.ports.eraseIdx i }.Represents (m.closePort k) :=
  { h with
    consistent := h.consistent.closePort ((h.opened k).mpr ⟨w, List.mem_of_getElem? hi⟩)
    portKeys := ((List.eraseIdx_sublist _ i).map Prod.fst).nodup h.portKeys
    ports := fun p hp => h.ports p ((List.eraseIdx_sublist _ i).subset hp)
    opened := fun j => by
      rw [h.erasePort_iff hi]
      obtain rfl | hj := eq_or_ne j k
      · simp [KeyedChannel.closePort]
      · simp [KeyedChannel.closePort, hj] }

/-! ### The next message -/

def header : SwitchboxParcel → UInt16 × ℤ
  | .content k data => (k, data.length)
  | .opening k => (k, iocSwitchboxNewConnection)
  | .note n => n

def payload : SwitchboxParcel → List UInt8
  | .content _ data => data
  | _ => []

theorem encodeParcel_eq (p : SwitchboxParcel) :
    encodeParcel p = msgHeader (header p).1 (header p).2 ++ payload p := by
  cases p <;> simp [encodeParcel, header, payload]

theorem header_bounds {p : SwitchboxParcel} (hp : SendableParcel p) :
    -0x80000000 ≤ (header p).2 ∧ (header p).2 < 0x80000000 := by
  cases p with
  | content k data =>
      obtain ⟨-, hlt⟩ := hp
      simp only [header]
      omega
  | opening k => simp [header, iocSwitchboxNewConnection]
  | note n =>
      rcases hp with hp | hp <;>
        simp [header, hp, iocSwitchboxConnectionDropped, iocSwitchboxKeepalive]

/-- The header which has come is the one of the first message in the queue. -/
theorem nextHeader (h : l.Represents m) {r : OsalRingBuf} {more : List UInt8}
    (hbytes : l.bytes = r.bytes ++ more) (hmissing : l.missing = 0) :
    getMsgHeaderFromRingbuf r = none ∨
      ∃ p queue, m.queue = p :: queue ∧ sboxHdrSize ≤ r.bytes.length ∧
        getMsgHeaderFromRingbuf r =
          some ((header p).1, (header p).2, r.drop sboxHdrSize) := by
  rcases Nat.lt_or_ge r.bytes.length sboxHdrSize with hshort | hsize
  · exact .inl (getMsgHeaderFromRingbuf_none hshort)
  · right
    have hrest : m.rest = [] := List.eq_nil_of_length_eq_zero (h.missing ▸ hmissing)
    have hall := h.bytes
    rw [hbytes, hrest, List.nil_append] at hall
    cases hqueue : m.queue with
    | nil =>
        rw [hqueue] at hall
        have hlength := congrArg List.length hall
        simp only [List.length_append, List.flatMap_nil, List.length_nil] at hlength
        unfold sboxHdrSize at hsize
        omega
    | cons p queue =>
        rw [hqueue, List.flatMap_cons, encodeParcel_eq, List.append_assoc] at hall
        obtain ⟨hlow, hhigh⟩ := header_bounds (h.sendable p (hqueue ▸ List.mem_cons_self ..))
        exact ⟨p, queue, rfl, hsize, getMsgHeaderFromRingbuf_eq hlow hhigh hall hsize⟩

variable {queue : List SwitchboxParcel} {p : SwitchboxParcel}

theorem bytes_after_header (h : l.Represents m) (hmissing : l.missing = 0)
    (hqueue : m.queue = p :: queue) :
    l.bytes.drop sboxHdrSize = payload p ++ queue.flatMap encodeParcel := by
  have hrest : m.rest = [] := List.eq_nil_of_length_eq_zero (h.missing ▸ hmissing)
  rw [h.bytes, hrest, hqueue, List.flatMap_cons, encodeParcel_eq]
  rfl

theorem takeContent (h : l.Represents m) (hmissing : l.missing = 0)
    (hqueue : m.queue = .content k data :: queue) :
    { l with bytes := l.bytes.drop sboxHdrSize, missing := data.length, target := k }.Represents
      m.take := by
  have hrest : m.rest = [] := List.eq_nil_of_length_eq_zero (h.missing ▸ hmissing)
  have htake : m.take = { m with queue := queue, target := k, rest := data } := by
    rw [KeyedChannel.take, hqueue]
  have hconsistent := h.consistent.take hrest
  rw [htake] at hconsistent ⊢
  exact
    { h with
      consistent := hconsistent
      bytes := h.bytes_after_header hmissing hqueue
      sendable := fun p hp => h.sendable p (hqueue ▸ List.mem_cons_of_mem _ hp)
      missing := rfl
      target := fun _ => rfl }

theorem takeNote (h : l.Represents m) (hmissing : l.missing = 0) {n : UInt16 × ℤ}
    (hqueue : m.queue = .note n :: queue) :
    { l with bytes := l.bytes.drop sboxHdrSize }.Represents m.take := by
  have hrest : m.rest = [] := List.eq_nil_of_length_eq_zero (h.missing ▸ hmissing)
  have htake : m.take = { m with queue := queue } := by
    rw [KeyedChannel.take, hqueue]
  have hconsistent := h.consistent.take hrest
  rw [htake] at hconsistent ⊢
  exact
    { h with
      consistent := hconsistent
      bytes := by
        rw [h.bytes_after_header hmissing hqueue, hrest]
        rfl
      sendable := fun p hp => h.sendable p (hqueue ▸ List.mem_cons_of_mem _ hp) }

theorem takeOpening (h : l.Represents m) (hmissing : l.missing = 0)
    (hqueue : m.queue = .opening k :: queue) (hnew : k ∉ l.ports.map Prod.fst) :
    { l with
      bytes := l.bytes.drop sboxHdrSize
      ports := l.ports ++ [(k, [], true)] }.Represents m.take := by
  have hrest : m.rest = [] := List.eq_nil_of_length_eq_zero (h.missing ▸ hmissing)
  have htake : m.take =
      { m with queue := queue, port := Function.update m.port k .opened } := by
    rw [KeyedChannel.take, hqueue]
  have hconsistent := h.consistent.take hrest
  have hk : m.port k = .unopened :=
    h.consistent.fresh k (by rw [hqueue]; exact List.mem_cons_self ..)
  have hreceived := (h.consistent.unopened k hk).received
  have htaken := h.taken k
  rw [hreceived, List.prefix_nil] at htaken
  rw [htake] at hconsistent ⊢
  exact
    { h with
      consistent := hconsistent
      bytes := by
        rw [h.bytes_after_header hmissing hqueue, hrest]
        rfl
      sendable := fun p hp => h.sendable p (hqueue ▸ List.mem_cons_of_mem _ hp)
      portKeys := by
        rw [List.map_append]
        exact List.nodup_append.mpr ⟨h.portKeys, by simp, fun a ha b hb hab => by
          obtain rfl : b = k := by simpa using hb
          exact hnew (hab ▸ ha)⟩
      ports := fun p hp => by
        rcases List.mem_append.mp hp with hp | hp
        · exact h.ports p hp
        · obtain rfl := List.mem_singleton.mp hp
          simp [hreceived, htaken]
      opened := fun j => by
        obtain rfl | hj := eq_or_ne j k
        · simp
        · simp [hj, h.opened j] }

/-- A new connection is taken, and there is no memory for a port. -/
theorem takeOpeningLost (h : l.Represents m) (hmissing : l.missing = 0)
    (hqueue : m.queue = .opening k :: queue) :
    { l with bytes := l.bytes.drop sboxHdrSize }.Represents (m.take.closePort k) := by
  have hrest : m.rest = [] := List.eq_nil_of_length_eq_zero (h.missing ▸ hmissing)
  have htake : m.take =
      { m with queue := queue, port := Function.update m.port k .opened } := by
    rw [KeyedChannel.take, hqueue]
  have hconsistent := (h.consistent.take hrest).closePort (k := k) (by simp [htake])
  have hk : m.port k = .unopened :=
    h.consistent.fresh k (by rw [hqueue]; exact List.mem_cons_self ..)
  rw [htake] at hconsistent ⊢
  exact
    { h with
      consistent := hconsistent
      bytes := by
        rw [h.bytes_after_header hmissing hqueue, KeyedChannel.closePort, hrest]
        rfl
      sendable := fun p hp => h.sendable p (hqueue ▸ List.mem_cons_of_mem _ hp)
      opened := fun j => by
        rw [← h.opened j]
        obtain rfl | hj := eq_or_ne j k
        · simp [KeyedChannel.closePort, hk]
        · simp [KeyedChannel.closePort, hj] }

/-! ### The data of the message -/

theorem take_bytes (h : l.Represents m) (hn : n ≤ l.missing) :
    l.bytes.take n = m.rest.take n ∧
      l.bytes.drop n = m.rest.drop n ++ m.queue.flatMap encodeParcel := by
  have hle : n ≤ m.rest.length := h.missing ▸ hn
  rw [h.bytes]
  exact ⟨List.take_append_of_le_length hle, List.drop_append_of_le_length hle⟩

theorem target_eq (h : l.Represents m) (hpos : 0 < l.missing) : m.target = l.target :=
  h.target (List.ne_nil_of_length_pos (h.missing ▸ hpos))

theorem target_drop (h : l.Represents m) (hne : m.rest.drop n ≠ []) : m.target = l.target :=
  h.target fun hnil => hne (by rw [hnil, List.drop_nil])

theorem deliver (h : l.Represents m) (hn : n ≤ l.missing) (hpos : 0 < l.missing)
    (hi : l.ports[i]? = some (l.target, w, true)) :
    { l with
      bytes := l.bytes.drop n
      missing := l.missing - n
      ports := l.ports.set i (l.target, w ++ l.bytes.take n, true) }.Represents (m.deliver n) := by
  obtain ⟨htake, hdrop⟩ := h.take_bytes hn
  have htarget := h.target_eq hpos
  have hmem := List.mem_of_getElem? hi
  have hopen : m.port m.target = .opened := by
    rw [htarget]
    exact (h.opened _).mpr ⟨w, hmem⟩
  have hconsistent := h.consistent.deliver n
  have hreceived : (m.deliver n).received =
      Function.update m.received l.target (m.received l.target ++ m.rest.take n) := by
    rw [← htarget]
    exact if_pos hopen
  have hkeys : (l.ports.set i (l.target, w ++ l.bytes.take n, true)).map Prod.fst =
      l.ports.map Prod.fst :=
    Registry.map_key_set hi (show (l.target, w ++ l.bytes.take n, true).1 = l.target from rfl)
  refine ⟨hconsistent, hdrop, h.sendable, ?_, h.target_drop, h.waitingKeys, ?_, h.sent,
    h.waiting, fun j => ?_, fun p hp => ?_, fun j => ?_⟩
  · simp [KeyedChannel.deliver, h.missing]
  · dsimp only
    rw [hkeys]
    exact h.portKeys
  · rw [hreceived]
    obtain rfl | hj := eq_or_ne j l.target
    · rw [Function.update_self]
      exact (h.taken _).trans (List.prefix_append _ _)
    · rw [Function.update_of_ne hj]
      exact h.taken j
  · rw [hreceived]
    rcases Registry.mem_set h.portKeys hi
      (show (l.target, w ++ l.bytes.take n, true).1 = l.target from rfl) hp with
      rfl | ⟨hold, hne⟩
    · dsimp only
      rw [Function.update_self, h.ports _ hmem, htake, List.append_assoc]
    · rw [Function.update_of_ne hne]
      exact h.ports p hold
  · change m.port j = .opened ↔ _
    rw [h.opened j, present_set hi h.portKeys]
    split_ifs with hj
    · rw [hj, present_iff hi h.portKeys]
    · rfl

theorem skip (h : l.Represents m) (hn : n ≤ l.missing) (hpos : 0 < l.missing)
    (habsent : ∀ w, (l.target, w, true) ∉ l.ports) :
    { l with bytes := l.bytes.drop n, missing := l.missing - n }.Represents (m.deliver n) := by
  obtain ⟨-, hdrop⟩ := h.take_bytes hn
  have hclosed : m.port m.target ≠ .opened := by
    rw [h.target_eq hpos, Ne, h.opened]
    exact fun ⟨w, hw⟩ => habsent w hw
  have hreceived : (m.deliver n).received = m.received := by
    simp only [KeyedChannel.deliver, hclosed, if_false]
  exact
    { h with
      consistent := h.consistent.deliver n
      bytes := hdrop
      missing := by simp [KeyedChannel.deliver, h.missing]
      target := h.target_drop
      taken := by rw [hreceived]; exact h.taken
      ports := by rw [hreceived]; exact h.ports }

end SwitchboxLane.Represents

end Iocom
