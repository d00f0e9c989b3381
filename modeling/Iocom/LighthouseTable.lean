import Iocom.LighthouseParsing
import Iocom.Lib.RecencyTable
import Iocom.Lib.TransitionSystem

/-!
# The networks which a lighthouse client remembers

The client connects to the address which its table has for a network.  The table has
the last address of every network, except for networks which have not been received
for longer than all of the table.  A loopback address is kept for ten seconds when
other addresses are received for the same network.
-/

namespace Iocom

open RecencyTable

/-- The arguments of `ioc_add_lighthouse_net`. -/
structure LighthouseOffer where
  ipAddr : List Char
  portNr : ℕ
  transport : LighthouseTransport
  networkName : List Char
  receivedTimer : ℤ

namespace LighthouseOffer

def key (o : LighthouseOffer) : LighthouseTransport × List Char := (o.transport, o.networkName)

def entry (o : LighthouseOffer) :
    Entry (LighthouseTransport × List Char) ℤ (List Char × ℕ) where
  key := o.key
  time := o.receivedTimer
  value := (o.ipAddr, o.portNr)

def KeepsOut (o later : LighthouseOffer) : Prop :=
  LighthouseClient.isLoopback o.ipAddr ∧ ¬LighthouseClient.isLoopback later.ipAddr ∧
    later.receivedTimer - o.receivedTimer < 10000

/-- A table with `nroNets` rows has no row for the offer any more: its rows have the
standing offers of other networks, none of them older. -/
def PushedOut (nroNets : ℕ)
    (last : LighthouseTransport × List Char → Option LighthouseOffer)
    (o : LighthouseOffer) : Prop :=
  ∃ others : Fin nroNets → LighthouseOffer,
    (Function.Injective fun i => (others i).key) ∧
    ∀ i, last (others i).key = some (others i) ∧ (others i).key ≠ o.key ∧
      o.receivedTimer ≤ (others i).receivedTimer

/-- `last` gives the offer which stands for each network after the offers.  An offer
stands until the next one for its network.  A loopback address keeps another one out
for ten seconds, so that this one never stands, unless it has itself been pushed out. -/
inductive Standing (nroNets : ℕ) :
    List LighthouseOffer → (LighthouseTransport × List Char → Option LighthouseOffer) →
      Prop where
  | start : Standing nroNets [] fun _ => none
  | keep {offers : List LighthouseOffer}
      {last : LighthouseTransport × List Char → Option LighthouseOffer}
      {o standing : LighthouseOffer} (h : Standing nroNets offers last)
      (hstanding : last o.key = some standing) (hkeeps : standing.KeepsOut o) :
      Standing nroNets (offers ++ [o]) last
  | replace {offers : List LighthouseOffer}
      {last : LighthouseTransport × List Char → Option LighthouseOffer}
      {o : LighthouseOffer} (h : Standing nroNets offers last)
      (hreplaced : ∀ standing, last o.key = some standing → standing.KeepsOut o →
        PushedOut nroNets last standing) :
      Standing nroNets (offers ++ [o]) (Function.update last o.key (some o))

variable {nroNets : ℕ} {offers : List LighthouseOffer}
  {last : LighthouseTransport × List Char → Option LighthouseOffer}

theorem Standing.offered (h : Standing nroNets offers last)
    (k : LighthouseTransport × List Char) (o : LighthouseOffer) (hlast : last k = some o) :
    o ∈ offers ∧ o.key = k := by
  induction h generalizing k o with
  | start => cases hlast
  | keep _ _ _ ih =>
      obtain ⟨hmem, hkey⟩ := ih k o hlast
      exact ⟨List.mem_append_left _ hmem, hkey⟩
  | @replace _ _ newest _ _ ih =>
      obtain rfl | hne := eq_or_ne k newest.key
      · rw [Function.update_self, Option.some.injEq] at hlast
        subst hlast
        exact ⟨List.mem_append_right _ List.mem_cons_self, rfl⟩
      · rw [Function.update_of_ne hne] at hlast
        obtain ⟨hmem, hkey⟩ := ih k o hlast
        exact ⟨List.mem_append_left _ hmem, hkey⟩

/-- Every network which has been offered has an offer which stands. -/
theorem Standing.stands (h : Standing nroNets offers last) (o : LighthouseOffer)
    (ho : o ∈ offers) : ∃ standing, last o.key = some standing := by
  induction h with
  | start => cases ho
  | keep _ hstanding _ ih =>
      rcases List.mem_append.mp ho with hmem | hmem
      · exact ih hmem
      · rw [List.mem_singleton.mp hmem]
        exact ⟨_, hstanding⟩
  | @replace _ _ newest _ _ ih =>
      obtain hsame | hne := eq_or_ne o.key newest.key
      · exact ⟨newest, by rw [hsame, Function.update_self]⟩
      · rw [Function.update_of_ne hne]
        rcases List.mem_append.mp ho with hmem | hmem
        · exact ih hmem
        · rw [List.mem_singleton.mp hmem] at hne
          exact absurd rfl hne

end LighthouseOffer

/-! ## Connecting -/

/-- What `ioc_get_lighthouse_connectstr` tells with the network state. -/
inductive LighthouseState where
  | notVisible
  | noLighthouseForThisIoNetwork
  | ok
  deriving DecidableEq

/-- What `ioc_get_lighthouse_connectstr` gives, and the network name which it keeps. -/
structure LighthouseConnect where
  connectstr : List Char
  networkName : List Char
  deriving DecidableEq

namespace LighthouseClient

variable {prm : LighthouseClientParams}

def connectTransport (secureConnection : Bool) : LighthouseTransport :=
  if secureConnection then .tlsSocket else .tcpSocket

/-- Without a name, or with an asterisk, any network will do. -/
def compareName (networkName : List Char) : List Char :=
  if networkName = ['*'] then [] else networkName

def selectLater (c : LighthouseClient prm) (transport : LighthouseTransport)
    (compareName : List Char) (selected : Option (Fin prm.nroNets)) (i : Fin prm.nroNets) :
    Option (Fin prm.nroNets) :=
  if (c.net.get i).transport ≠ transport then selected
  else if compareName ≠ [] ∧ compareName ≠ (c.net.get i).networkName then selected
  else
    match selected with
    | some j =>
        if osHasElapsedSince (c.net.get j).receivedTimer (c.net.get i).receivedTimer 1 then some i
        else some j
    | none => some i

/-- `ioc_get_lighthouse_connectstr` for a socket; without a result it has failed. -/
def getLighthouseConnectstr (c : LighthouseClient prm) (networkName : List Char)
    (secureConnection : Bool) (connectstrSz : ℕ) : LighthouseState × Option LighthouseConnect :=
  let transport := connectTransport secureConnection
  match (List.finRange prm.nroNets).foldl
      (c.selectLater transport (compareName networkName)) none with
  | some i =>
      let connectstr := osStrncpy (c.net.get i).ipAddr connectstrSz
      let connectstr := osStrncat connectstr [':'] connectstrSz
      let connectstr := osStrncat connectstr (osalIntToStr (c.net.get i).portNr) connectstrSz
      (.ok, some ⟨connectstr, osStrncpy (c.net.get i).networkName prm.networkNameSz⟩)
  | none =>
      if ∃ i : Fin prm.nroNets, (c.net.get i).transport = transport then
        (.noLighthouseForThisIoNetwork, none)
      else (.notVisible, none)

/-! ## The table -/

def row (c : LighthouseClient prm) (i : Fin prm.nroNets) :
    Entry (LighthouseTransport × List Char) ℤ (List Char × ℕ) where
  key := ((c.net.get i).transport, (c.net.get i).networkName)
  time := (c.net.get i).receivedTimer
  value := ((c.net.get i).ipAddr, (c.net.get i).portNr)

def entries (c : LighthouseClient prm) (i : Fin prm.nroNets) :
    Option (Entry (LighthouseTransport × List Char) ℤ (List Char × ℕ)) :=
  if (c.net.get i).transport = .defaultTransport then none else some (c.row i)

variable {c c' : LighthouseClient prm} {transport : LighthouseTransport}
  {networkName : List Char} {o : LighthouseOffer}

theorem entries_unused {i : Fin prm.nroNets} :
    c.entries i = none ↔ (c.net.get i).transport = .defaultTransport := by
  simp [entries]

theorem entries_eq_some {i : Fin prm.nroNets}
    {e : Entry (LighthouseTransport × List Char) ℤ (List Char × ℕ)} :
    c.entries i = some e ↔ (c.net.get i).transport ≠ .defaultTransport ∧ c.row i = e := by
  simp only [entries, Option.ite_none_left_eq_some, Option.some.injEq, ne_eq]

theorem entries_of_used {i : Fin prm.nroNets} (h : (c.net.get i).transport ≠ .defaultTransport) :
    c.entries i = some (c.row i) :=
  entries_eq_some.mpr ⟨h, rfl⟩

theorem findNet_some {p : LightHouseNetwork prm.networkNameSz → Bool} {i : Fin prm.nroNets}
    (h : c.net.findFinIdx? p = some i) : p (c.net.get i) = true := by
  rw [Vector.findFinIdx?, Option.map_eq_some_iff] at h
  obtain ⟨j, hj, rfl⟩ := h
  exact (Array.findFinIdx?_eq_some_iff.mp hj).1

theorem findNet_none {p : LightHouseNetwork prm.networkNameSz → Bool}
    (h : c.net.findFinIdx? p = none) (i : Fin prm.nroNets) : ¬p (c.net.get i) = true := by
  rw [Vector.findFinIdx?_eq_none_iff] at h
  exact h (c.net.get i) (Vector.getElem_mem _)

theorem matchingNet_some {i : Fin prm.nroNets}
    (h : c.matchingNet transport networkName = some i) :
    (c.net.get i).transport = transport ∧ (c.net.get i).networkName = networkName := by
  have hnet := findNet_some h
  simpa only [Bool.decide_and, Bool.and_eq_true, decide_eq_true_eq] using hnet

theorem matchingNet_isSome {i : Fin prm.nroNets} (htransport : (c.net.get i).transport = transport)
    (hname : (c.net.get i).networkName = networkName) :
    (c.matchingNet transport networkName).isSome := by
  by_contra hmissing
  have hnet := findNet_none (Option.not_isSome_iff_eq_none.mp hmissing) i
  simp [htransport, hname] at hnet

theorem foldl_oldest {α : Type*} (time : α → ℤ) (rest : List α) (first : α) :
    let oldest := rest.foldl (fun selected i =>
      if osHasElapsedSince (time selected) (time i) 1 then selected else i) first
    time oldest ≤ time first ∧ ∀ i ∈ rest, time oldest ≤ time i := by
  induction rest generalizing first with
  | nil => simp
  | cons i rest ih =>
      obtain ⟨hfirst, hrest⟩ :=
        ih (if osHasElapsedSince (time first) (time i) 1 then first else i)
      rw [List.foldl_cons]
      refine ⟨hfirst.trans ?_, fun j hj => ?_⟩
      · split_ifs with helapsed
        · exact le_refl _
        · simp only [osHasElapsedSince, decide_eq_true_eq] at helapsed
          omega
      · rcases List.mem_cons.mp hj with rfl | hj
        · refine hfirst.trans ?_
          split_ifs with helapsed
          · simp only [osHasElapsedSince, decide_eq_true_eq] at helapsed
            omega
          · exact le_refl _
        · exact hrest j hj

theorem oldestNet_le (i : Fin prm.nroNets) :
    (c.net.get c.oldestNet).receivedTimer ≤ (c.net.get i).receivedTimer := by
  obtain ⟨hfirst, hrest⟩ := foldl_oldest (fun i : Fin prm.nroNets => (c.net.get i).receivedTimer)
    ((List.finRange prm.nroNets).drop 1) ⟨0, prm.nroNets_pos⟩
  have hall : ∀ (n : ℕ) (hn : 0 < n) (i : Fin n),
      i = ⟨0, hn⟩ ∨ i ∈ (List.finRange n).drop 1 := by
    intro n hn i
    cases n with
    | zero => omega
    | succ n => simpa [List.finRange_succ, eq_comm] using Fin.eq_zero_or_eq_succ i
  rcases hall prm.nroNets prm.nroNets_pos i with rfl | hmem
  · exact hfirst
  · exact hrest i hmem

/-- A network with the name, else an unused row, else the oldest one. -/
theorem selectedNet_chosen (htransport : transport ≠ .defaultTransport) :
    Chosen c.entries (transport, networkName) (c.selectedNet transport networkName) := by
  unfold selectedNet
  cases hmatching : c.matchingNet transport networkName with
  | some i =>
      obtain ⟨hsame, hname⟩ := matchingNet_some hmatching
      have hused : (c.net.get i).transport ≠ .defaultTransport := by
        rw [hsame]
        exact htransport
      exact .has (c.row i) (entries_of_used hused) (by rw [row, hsame, hname])
  | none =>
      have hnew : ∀ j e, c.entries j = some e → e.key ≠ (transport, networkName) := by
        intro j e hslot hkey
        have hnet := findNet_none hmatching j
        obtain ⟨-, rfl⟩ := entries_eq_some.mp hslot
        rw [row, Prod.mk.injEq] at hkey
        simp only [Bool.decide_and, Bool.and_eq_true, decide_eq_true_eq, not_and] at hnet
        exact hnet hkey.1 hkey.2
      dsimp only
      cases hfree : c.net.findFinIdx? fun n => n.transport = .defaultTransport with
      | some i =>
          have hnet := findNet_some hfree
          rw [decide_eq_true_eq] at hnet
          exact .free hnew (entries_unused.mpr hnet)
      | none =>
          have hused : ∀ j, c.entries j = some (c.row j) := by
            intro j
            have hnet := findNet_none hfree j
            rw [decide_eq_true_eq] at hnet
            exact entries_of_used hnet
          exact .oldest hnew (c.row c.oldestNet) (hused c.oldestNet) fun j =>
            ⟨c.row j, hused j, oldestNet_le j⟩

/-- `addLighthouseNet` with its arguments as an offer. -/
def remember (c : LighthouseClient prm) (o : LighthouseOffer) : Option (LighthouseClient prm) :=
  c.addLighthouseNet o.ipAddr o.portNr o.transport o.networkName o.receivedTimer

theorem remember_cases (haddr : o.ipAddr.length < prm.ipaddrSz)
    (hname : o.networkName.length < prm.ipaddrSz) (htransport : o.transport ≠ .defaultTransport)
    (h : c.remember o = some c') :
    (∃ i, Chosen c.entries o.key i ∧
        c'.entries = Function.update c.entries i (some o.entry) ∧
        ∀ e, c.entries i = some e → e.key = o.key → isLoopback e.value.1 →
          ¬isLoopback o.ipAddr → 10000 ≤ o.receivedTimer - e.time) ∨
      c' = c ∧ ∃ i e, c.entries i = some e ∧ e.key = o.key ∧ isLoopback e.value.1 ∧
        ¬isLoopback o.ipAddr ∧ o.receivedTimer - e.time < 10000 := by
  have hchosen : Chosen c.entries o.key (c.selectedNet o.transport o.networkName) :=
    selectedNet_chosen htransport
  unfold remember addLighthouseNet at h
  dsimp only at h
  split_ifs at h with hkept hfits
  · right
    obtain ⟨hmatching, hloopback, hsame, hother, helapsed⟩ := hkept
    refine ⟨(Option.some.inj h).symm, ?_⟩
    obtain ⟨i, hi⟩ := Option.isSome_iff_exists.mp hmatching
    have hselected : c.selectedNet o.transport o.networkName = i := by
      simp [selectedNet, hi]
    rw [← hselected] at hi
    have htransports := (matchingNet_some hi).1
    have hused : (c.net.get (c.selectedNet o.transport o.networkName)).transport ≠
        .defaultTransport := by
      rw [htransports]
      exact htransport
    refine ⟨c.selectedNet o.transport o.networkName,
      c.row (c.selectedNet o.transport o.networkName), entries_of_used hused, ?_, hloopback,
      by simpa using hother,
      by simpa [row, osHasElapsedSince, Vector.get] using helapsed⟩
    exact Prod.ext htransports hsame
  · left
    obtain rfl := Option.some.inj h
    refine ⟨c.selectedNet o.transport o.networkName, hchosen, ?_, ?_⟩
    case refine_2 =>
      intro e hslot hkey hloopback hother
      by_contra hsoon
      obtain ⟨hused, rfl⟩ := entries_eq_some.mp hslot
      rw [row, LighthouseOffer.key, Prod.mk.injEq] at hkey
      refine hkept ⟨matchingNet_isSome hkey.1 hkey.2, hloopback, hkey.2, by simpa using hother,
        by simpa [row, osHasElapsedSince, Vector.get] using hsoon⟩
    have hcopyAddr : osStrncpy o.ipAddr prm.ipaddrSz = o.ipAddr :=
      List.take_of_length_le (by omega)
    have hcopyName : osStrncpy o.networkName prm.ipaddrSz = o.networkName :=
      List.take_of_length_le (by omega)
    funext j
    obtain rfl | hne := eq_or_ne j (c.selectedNet o.transport o.networkName)
    · have hself (n : LightHouseNetwork prm.networkNameSz) :
          (c.net.set (c.selectedNet o.transport o.networkName) n).get
            (c.selectedNet o.transport o.networkName) = n := Vector.getElem_set_self _
      rw [Function.update_self, entries_eq_some]
      simp [row, hself, htransport, hcopyAddr, hcopyName, LighthouseOffer.entry,
        LighthouseOffer.key]
    · rw [Function.update_of_ne hne]
      have hval : (c.selectedNet o.transport o.networkName).val ≠ j.val :=
        fun heq => hne (Fin.ext heq.symm)
      have hother (n : LightHouseNetwork prm.networkNameSz) :
          (c.net.set (c.selectedNet o.transport o.networkName) n).get j = c.net.get j :=
        Vector.getElem_set_ne _ _ hval
      simp [entries, row, hother]

/-! ## The last offers -/

/-- The table holds the offers which stand. -/
def Tracks (c : LighthouseClient prm) (offers : List LighthouseOffer)
    (last : LighthouseTransport × List Char → Option LighthouseOffer) : Prop :=
  LighthouseOffer.Standing prm.nroNets offers last ∧
    Holds (fun k => (last k).map LighthouseOffer.entry) c.entries

variable {offers : List LighthouseOffer}
  {last : LighthouseTransport × List Char → Option LighthouseOffer}

theorem Tracks.offer (h : c.Tracks offers last) {i : Fin prm.nroNets}
    {e : Entry (LighthouseTransport × List Char) ℤ (List Char × ℕ)}
    (hslot : c.entries i = some e) :
    ∃ o, last o.key = some o ∧ o.entry = e := by
  obtain ⟨o, hlast, rfl⟩ := Option.map_eq_some_iff.mp (h.2.isLast i e hslot)
  have hkey : o.key = o.entry.key := rfl
  exact ⟨o, hkey ▸ hlast, rfl⟩

theorem Tracks.pushedOut (h : c.Tracks offers last) {o : LighthouseOffer}
    (hlast : last o.key = some o)
    (hmissing : ∀ i e, c.entries i = some e → e.key ≠ o.key) :
    ∃ others : Fin prm.nroNets → LighthouseOffer,
      (Function.Injective fun i => (others i).key) ∧
      ∀ i, last (others i).key = some (others i) ∧
        c.entries i = some (others i).entry ∧ o.receivedTimer ≤ (others i).receivedTimer := by
  have hrows := h.2.dropped o.key o.entry (by rw [hlast, Option.map_some]) hmissing
  choose rows hslots hle using hrows
  choose others hstand hentry using fun i => h.offer (hslots i)
  have hothers : ∀ i, c.entries i = some (others i).entry := by
    intro i
    rw [hslots i, hentry i]
  refine ⟨others, ?_, fun i => ⟨hstand i, hothers i, ?_⟩⟩
  · intro i j hsame
    exact h.2.unique i j _ _ (hothers i) (hothers j) hsame
  · have htime : (others i).receivedTimer = (rows i).time := congrArg Entry.time (hentry i)
    exact htime ▸ hle i

theorem Tracks.remember (h : c.Tracks offers last) (haddr : o.ipAddr.length < prm.ipaddrSz)
    (hname : o.networkName.length < prm.ipaddrSz) (htransport : o.transport ≠ .defaultTransport)
    (htime : ∀ o' ∈ offers, o'.receivedTimer ≤ o.receivedTimer)
    (hnext : c.remember o = some c') : ∃ last', c'.Tracks (offers ++ [o]) last' := by
  obtain ⟨hstanding, hholds⟩ := h
  rcases remember_cases haddr hname htransport hnext with
    ⟨i, hchosen, hentries, hreplaced⟩ | ⟨rfl, i, e, hslot, hkey, hloopback, hother, hsoon⟩
  · refine ⟨Function.update last o.key (some o), hstanding.replace ?_, ?_⟩
    · intro standing hlast hkeeps
      have hoffered := hstanding.offered o.key standing hlast
      rw [← hoffered.2] at hlast
      -- With a row of the network, the loopback address would have kept the offer out.
      have hmissing : ∀ j e, c.entries j = some e → e.key ≠ standing.key := by
        intro j e hslot hsame
        obtain ⟨o', hlast', rfl⟩ := Tracks.offer ⟨hstanding, hholds⟩ hslot
        have hown : o'.key = standing.key := hsame
        rw [hown, hlast, Option.some.injEq] at hlast'
        subst hlast'
        have hi : c.entries i = some standing.entry := by
          cases hchosen with
          | has e' hslot' hkey' =>
              have hj := hholds.unique j i _ _ hslot hslot' (by rw [hkey', hoffered.2.symm]; rfl)
              rw [← hj, hslot]
          | free hnew => exact absurd hoffered.2 (hnew j _ hslot)
          | oldest hnew => exact absurd hoffered.2 (hnew j _ hslot)
        have hlong := hreplaced _ hi hoffered.2 hkeeps.1 hkeeps.2.1
        have hshort := hkeeps.2.2
        simp only [LighthouseOffer.entry] at hlong
        omega
      obtain ⟨others, hdistinct, hothers⟩ := Tracks.pushedOut ⟨hstanding, hholds⟩ hlast hmissing
      exact ⟨others, hdistinct, fun j => ⟨(hothers j).1, hmissing j _ (hothers j).2.1,
        (hothers j).2.2⟩⟩
    · have hnewest : ∀ k e, (last k).map LighthouseOffer.entry = some e →
          e.time ≤ o.entry.time := by
        intro k e hlast
        obtain ⟨o', hlast', rfl⟩ := Option.map_eq_some_iff.mp hlast
        exact htime o' (hstanding.offered k o' hlast').1
      have hstored := hholds.store (e := o.entry) hchosen hnewest
      have hlasts : (fun k => (Function.update last o.key (some o) k).map LighthouseOffer.entry) =
          Function.update (fun k => (last k).map LighthouseOffer.entry) o.entry.key
            (some o.entry) := by
        funext k
        exact Function.apply_update (fun _ => Option.map LighthouseOffer.entry) last o.key
          (some o) k
      rw [hentries, hlasts]
      exact hstored
  · obtain ⟨standing, hlast, rfl⟩ := Tracks.offer ⟨hstanding, hholds⟩ hslot
    have hown : standing.key = o.key := hkey
    rw [hown] at hlast
    exact ⟨last, hstanding.keep hlast ⟨hloopback, hother, hsoon⟩, hholds⟩

theorem Tracks.rememberAll {more : List LighthouseOffer} {receivedTimer : ℤ}
    (h : c.Tracks offers last) (htime : ∀ o ∈ offers, o.receivedTimer ≤ receivedTimer)
    (hmore : ∀ o ∈ more, o.ipAddr.length < prm.ipaddrSz ∧ o.networkName.length < prm.ipaddrSz ∧
      o.transport ≠ .defaultTransport ∧ o.receivedTimer = receivedTimer)
    (hnext : more.foldlM LighthouseClient.remember c = some c') :
    ∃ last', c'.Tracks (offers ++ more) last' := by
  induction more generalizing c offers last with
  | nil =>
      obtain rfl : c = c' := by simpa using hnext
      exact ⟨last, by simpa using h⟩
  | cons o more ih =>
      rw [List.foldlM_cons, Option.bind_eq_bind, Option.bind_eq_some_iff] at hnext
      obtain ⟨between, hfirst, hrest⟩ := hnext
      obtain ⟨haddr, hname, htransport, hnow⟩ := hmore o List.mem_cons_self
      obtain ⟨standing, hbetween⟩ := h.remember haddr hname htransport (hnow ▸ htime) hfirst
      obtain ⟨last', htracks⟩ := ih hbetween
        (fun o' ho' => by
          rcases List.mem_append.mp ho' with hmem | hmem
          · exact htime o' hmem
          · rw [List.mem_singleton.mp hmem, hnow])
        (fun o' ho' => hmore o' (List.mem_cons_of_mem o ho')) hrest
      exact ⟨last', by rwa [List.append_assoc] at htracks⟩

/-! ## Packets -/

def offerOf (selectTls : Bool) (remoteAddr : List Char) (receivedTimer : ℤ)
    (r : LighthouseReport) : Option LighthouseOffer :=
  if selectPort selectTls r ≠ 0 ∧ r.protocol = ['i'] then
    some
      { ipAddr := remoteAddr
        portNr := selectPort selectTls r
        transport := if selectTls then .tlsSocket else .tcpSocket
        networkName := r.networkName
        receivedTimer := receivedTimer }
  else none

variable {remoteAddr : List Char} {receivedTimer : ℤ}

theorem rememberNet_eq {r : LighthouseReport} :
    rememberNet remoteAddr receivedTimer c r =
      match offerOf c.selectTls remoteAddr receivedTimer r with
      | some o => c.remember o
      | none => some c := by
  unfold rememberNet offerOf
  by_cases hremembered : selectPort c.selectTls r ≠ 0 ∧ r.protocol = ['i']
  · rw [if_pos hremembered, if_pos hremembered]
    rfl
  · rw [if_neg hremembered, if_neg hremembered]

theorem rememberNets_eq {reports : List LighthouseReport} :
    reports.foldlM (rememberNet remoteAddr receivedTimer) c =
      (reports.filterMap (offerOf c.selectTls remoteAddr receivedTimer)).foldlM
        LighthouseClient.remember c := by
  induction reports generalizing c with
  | nil => rfl
  | cons r reports ih =>
      rw [List.foldlM_cons]
      cases hstep : rememberNet remoteAddr receivedTimer c r with
      | none =>
          rw [rememberNet_eq] at hstep
          cases hoffer : offerOf c.selectTls remoteAddr receivedTimer r with
          | none => simp [hoffer] at hstep
          | some o =>
              rw [hoffer] at hstep
              simp [hoffer, show c.remember o = none from hstep]
      | some next =>
          have hselect := (rememberNet_spec hstep).1
          have hrest := @ih next
          rw [hselect] at hrest
          rw [rememberNet_eq] at hstep
          cases hoffer : offerOf c.selectTls remoteAddr receivedTimer r with
          | none =>
              rw [hoffer, Option.some.injEq] at hstep
              subst hstep
              simpa [hoffer] using hrest
          | some o =>
              rw [hoffer] at hstep
              simpa [hoffer, show c.remember o = some next from hstep] using hrest

theorem rememberAll_selectTls {more : List LighthouseOffer}
    (h : more.foldlM LighthouseClient.remember c = some c') : c'.selectTls = c.selectTls := by
  induction more generalizing c with
  | nil =>
      obtain rfl : c = c' := by simpa using h
      rfl
  | cons o more ih =>
      rw [List.foldlM_cons, Option.bind_eq_bind, Option.bind_eq_some_iff] at h
      obtain ⟨between, hfirst, hrest⟩ := h
      exact (ih hrest).trans (addLighthouseNet_spec hfirst).1

end LighthouseClient

def LighthouseRun.offers {prm : LighthouseClientParams} (run : LighthouseRun prm)
    (receivedTimer : ℤ) : List LighthouseOffer :=
  run.calls.filterMap fun call =>
    LighthouseClient.offerOf run.client.selectTls call.ipAddr receivedTimer
      call.toLighthouseReport

namespace LighthouseClient

variable {prm : LighthouseClientParams} {c c' : LighthouseClient prm} {o : LighthouseOffer}

section Packets

variable {osChecksum : List UInt8 → UInt16} {earlier : LighthouseMessage} {packet : List UInt8}
  {remoteAddr : List Char} {receivedTimer : ℤ} {run : LighthouseRun prm}

/-- All which is reported with the right transport is remembered. -/
theorem runLighthouseClient_remembers
    (h : c.runLighthouseClient osChecksum earlier packet remoteAddr receivedTimer = some run) :
    (run.offers receivedTimer).foldlM LighthouseClient.remember c = some run.client ∧
      ∀ call ∈ run.calls, call.ipAddr = remoteAddr := by
  have hnothing : run = ⟨[], c, 0⟩ →
      (run.offers receivedTimer).foldlM LighthouseClient.remember c = some run.client ∧
        ∀ call ∈ run.calls, call.ipAddr = remoteAddr := by
    rintro rfl
    exact ⟨rfl, by simp⟩
  unfold runLighthouseClient at h
  dsimp only at h
  split_ifs at h with hvalid
  · unfold parsePublish at h
    dsimp only at h
    split_ifs at h with hports
    · obtain ⟨⟨first, items, far⟩, hread, h⟩ := Option.bind_eq_some_iff.mp h
      obtain ⟨next, hnext, rfl⟩ := Option.map_eq_some_iff.mp h
      rw [rememberNets_eq] at hnext
      have hselect := rememberAll_selectTls hnext
      refine ⟨?_, ?_⟩
      · unfold LighthouseRun.offers
        dsimp only
        rw [hselect, List.filterMap_map]
        exact hnext
      · simp only [List.mem_map]
        rintro call ⟨r, -, rfl⟩
        rfl
    · exact hnothing (Option.some.inj h).symm
  · exact hnothing (Option.some.inj h).symm

theorem mem_offers
    (h : c.runLighthouseClient osChecksum earlier packet remoteAddr receivedTimer = some run)
    (ho : o ∈ run.offers receivedTimer) :
    o.ipAddr = remoteAddr ∧ o.transport ≠ .defaultTransport ∧
      o.receivedTimer = receivedTimer := by
  obtain ⟨call, hcall, hoffer⟩ := List.mem_filterMap.mp ho
  rw [(runLighthouseClient_remembers h).2 call hcall] at hoffer
  unfold offerOf at hoffer
  rw [Option.ite_none_right_eq_some, Option.some.injEq] at hoffer
  obtain ⟨-, rfl⟩ := hoffer
  refine ⟨rfl, ?_, rfl⟩
  dsimp only
  split_ifs <;> simp

end Packets

/-! ## The newest network -/

def Matches (c : LighthouseClient prm) (transport : LighthouseTransport)
    (compareName : List Char) (i : Fin prm.nroNets) : Prop :=
  (c.net.get i).transport = transport ∧ (compareName = [] ∨ compareName = (c.net.get i).networkName)

theorem selectLater_cases (transport : LighthouseTransport) (compareName : List Char)
    (selected : Option (Fin prm.nroNets)) (i : Fin prm.nroNets) :
    c.selectLater transport compareName selected i = selected ∧
        (c.Matches transport compareName i →
          ∃ j, selected = some j ∧ (c.net.get i).receivedTimer ≤ (c.net.get j).receivedTimer) ∨
      c.selectLater transport compareName selected i = some i ∧
        c.Matches transport compareName i ∧
        ∀ j, selected = some j → (c.net.get j).receivedTimer ≤ (c.net.get i).receivedTimer := by
  unfold selectLater Matches
  split_ifs with htransport hname
  · exact .inl ⟨rfl, fun hmatches => absurd hmatches.1 htransport⟩
  · refine .inl ⟨rfl, fun hmatches => ?_⟩
    rcases hmatches.2 with hempty | hsame
    · exact absurd hempty hname.1
    · exact absurd hsame hname.2
  · have hmatches : (c.net.get i).transport = transport ∧
        (compareName = [] ∨ compareName = (c.net.get i).networkName) := by tauto
    cases selected with
    | none => exact .inr ⟨rfl, hmatches, by simp⟩
    | some j =>
        dsimp only
        split_ifs with helapsed
        · simp only [osHasElapsedSince, decide_eq_true_eq] at helapsed
          refine .inr ⟨rfl, hmatches, fun j' hj' => ?_⟩
          rw [← Option.some.inj hj']
          omega
        · simp only [osHasElapsedSince, decide_eq_true_eq] at helapsed
          exact .inl ⟨rfl, fun _ => ⟨j, rfl, by omega⟩⟩

theorem foldl_selectLater (transport : LighthouseTransport) (compareName : List Char)
    (rows : List (Fin prm.nroNets)) (selected : Option (Fin prm.nroNets))
    (hselected : ∀ i, selected = some i → c.Matches transport compareName i) :
    let last := rows.foldl (c.selectLater transport compareName) selected
    (∀ i, last = some i → c.Matches transport compareName i) ∧
      ∀ j, selected = some j ∨ j ∈ rows ∧ c.Matches transport compareName j →
        ∃ i, last = some i ∧ (c.net.get j).receivedTimer ≤ (c.net.get i).receivedTimer := by
  induction rows generalizing selected with
  | nil =>
      refine ⟨hselected, fun j hj => ?_⟩
      exact ⟨j, by simpa using hj, le_refl _⟩
  | cons row rows ih =>
      rcases @selectLater_cases prm c transport compareName selected row with
        ⟨hsame, hkept⟩ | ⟨hnew, hmatches, hle⟩
      · obtain ⟨hall, hlatest⟩ := ih selected hselected
        rw [List.foldl_cons, hsame]
        refine ⟨hall, fun j hj => ?_⟩
        rcases hj with hj | ⟨hj, hmatches⟩
        · exact hlatest j (.inl hj)
        · rcases List.mem_cons.mp hj with rfl | hj
          · obtain ⟨j', hj', hle⟩ := hkept hmatches
            obtain ⟨i, hi, hle'⟩ := hlatest j' (.inl hj')
            exact ⟨i, hi, hle.trans hle'⟩
          · exact hlatest j (.inr ⟨hj, hmatches⟩)
      · obtain ⟨hall, hlatest⟩ := ih (some row) fun i hi => Option.some.inj hi ▸ hmatches
        rw [List.foldl_cons, hnew]
        refine ⟨hall, fun j hj => ?_⟩
        obtain ⟨i, hi, hle'⟩ := hlatest row (.inl rfl)
        rcases hj with hj | ⟨hj, hmatches'⟩
        · exact ⟨i, hi, (hle j hj).trans hle'⟩
        · rcases List.mem_cons.mp hj with rfl | hj
          · exact ⟨i, hi, hle'⟩
          · exact hlatest j (.inr ⟨hj, hmatches'⟩)

/-! ## What is answered -/

theorem osStrncat_take (text more : List Char) (sz : ℕ) :
    osStrncat (text.take (sz - 1)) more sz = (text ++ more).take (sz - 1) := by
  unfold osStrncat
  rw [List.take_append, List.length_take]
  rcases le_total text.length (sz - 1) with hle | hle
  · rw [min_eq_right hle]
  · simp [min_eq_left hle, Nat.sub_eq_zero_of_le hle]

theorem getLighthouseConnectstr_some {networkName : List Char} {secureConnection : Bool}
    {connectstrSz : ℕ} {connect : LighthouseConnect}
    (h : (c.getLighthouseConnectstr networkName secureConnection connectstrSz).2 = some connect) :
    ∃ i, c.Matches (connectTransport secureConnection) (compareName networkName) i ∧
      (∀ j, c.Matches (connectTransport secureConnection) (compareName networkName) j →
        (c.net.get j).receivedTimer ≤ (c.net.get i).receivedTimer) ∧
      connect =
        ⟨((c.net.get i).ipAddr ++ ':' :: osalIntToStr (c.net.get i).portNr).take
            (connectstrSz - 1),
          (c.net.get i).networkName⟩ := by
  obtain ⟨hmatches, hlatest⟩ := @foldl_selectLater prm c (connectTransport secureConnection)
    (compareName networkName) (List.finRange prm.nroNets) none (by simp)
  unfold getLighthouseConnectstr at h
  dsimp only at h
  cases hselected : (List.finRange prm.nroNets).foldl
      (c.selectLater (connectTransport secureConnection) (compareName networkName)) none with
  | none =>
      rw [hselected] at h
      dsimp only at h
      split_ifs at h
  | some i =>
      rw [hselected] at h hmatches hlatest
      refine ⟨i, hmatches i rfl, fun j hj => ?_, ?_⟩
      · obtain ⟨i', hi', hle⟩ := hlatest j (.inr ⟨List.mem_finRange j, hj⟩)
        rwa [← Option.some.inj hi'] at hle
      · rw [← Option.some.inj h]
        have hname : osStrncpy (c.net.get i).networkName prm.networkNameSz =
            (c.net.get i).networkName := by
          have hfits := (c.net.get i).networkName_fits
          exact List.take_of_length_le (by omega)
        rw [hname]
        rw [osStrncpy, osStrncat_take, osStrncat_take, List.append_assoc, List.singleton_append]

theorem getLighthouseConnectstr_none {networkName : List Char} {secureConnection : Bool}
    {connectstrSz : ℕ}
    (h : (c.getLighthouseConnectstr networkName secureConnection connectstrSz).2 = none)
    (i : Fin prm.nroNets) :
    ¬c.Matches (connectTransport secureConnection) (compareName networkName) i := by
  intro hi
  obtain ⟨-, hlatest⟩ := @foldl_selectLater prm c (connectTransport secureConnection)
    (compareName networkName) (List.finRange prm.nroNets) none (by simp)
  obtain ⟨j, hj, -⟩ := hlatest i (.inr ⟨List.mem_finRange i, hi⟩)
  unfold getLighthouseConnectstr at h
  dsimp only at h
  rw [hj] at h
  cases h

end LighthouseClient

def LighthouseOffer.Matches (o : LighthouseOffer) (networkName : List Char)
    (secureConnection : Bool) : Prop :=
  o.transport = LighthouseClient.connectTransport secureConnection ∧
    (LighthouseClient.compareName networkName = [] ∨
      LighthouseClient.compareName networkName = o.networkName)

namespace LighthouseClient

variable {prm : LighthouseClientParams} {c : LighthouseClient prm}
  {offers : List LighthouseOffer}

/-- The connect string is the address which stands for the network which has been asked
for, the newest one when any network will do.  There is none only for networks which have
been pushed out for newer ones, as many as the table has rows. -/
def Answers (c : LighthouseClient prm) (offers : List LighthouseOffer) (networkName : List Char)
    (secureConnection : Bool) (connectstrSz : ℕ) : Prop :=
  ∃ last, LighthouseOffer.Standing prm.nroNets offers last ∧
    match (c.getLighthouseConnectstr networkName secureConnection connectstrSz).2 with
    | some connect =>
        ∃ o, last o.key = some o ∧ o.Matches networkName secureConnection ∧
          connect = ⟨(o.ipAddr ++ ':' :: osalIntToStr o.portNr).take (connectstrSz - 1),
            o.networkName⟩ ∧
          ∀ o' ∈ offers, o'.Matches networkName secureConnection →
            ∃ standing, last o'.key = some standing ∧
              standing.receivedTimer ≤ o.receivedTimer
    | none =>
        ∀ o ∈ offers, o.Matches networkName secureConnection →
          ∃ standing, last o.key = some standing ∧
            ∃ others : Fin prm.nroNets → LighthouseOffer,
              (Function.Injective fun i => (others i).key) ∧
              ∀ i, last (others i).key = some (others i) ∧
                ¬(others i).Matches networkName secureConnection ∧
                standing.receivedTimer ≤ (others i).receivedTimer

theorem connectTransport_ne (secureConnection : Bool) :
    connectTransport secureConnection ≠ .defaultTransport := by
  cases secureConnection <;> simp [connectTransport]

theorem matches_row {i : Fin prm.nroNets} {o : LighthouseOffer} (hkey : o.key = (c.row i).key)
    {networkName : List Char} {secureConnection : Bool} :
    o.Matches networkName secureConnection ↔
      c.Matches (connectTransport secureConnection) (compareName networkName) i := by
  rw [LighthouseOffer.key, row, Prod.mk.injEq] at hkey
  simp [LighthouseOffer.Matches, LighthouseClient.Matches, hkey.1, hkey.2]

theorem Tracks.answers {last : LighthouseTransport × List Char → Option LighthouseOffer}
    (h : c.Tracks offers last) (networkName : List Char) (secureConnection : Bool)
    (connectstrSz : ℕ) : c.Answers offers networkName secureConnection connectstrSz := by
  obtain ⟨hstanding, hholds⟩ := h
  refine ⟨last, hstanding, ?_⟩
  cases hconnect : (c.getLighthouseConnectstr networkName secureConnection connectstrSz).2 with
  | some connect =>
      obtain ⟨i, hi, hlatest, rfl⟩ := getLighthouseConnectstr_some hconnect
      have hused : (c.net.get i).transport ≠ .defaultTransport := by
        rw [hi.1]
        exact connectTransport_ne secureConnection
      have hslot := entries_of_used hused
      obtain ⟨o, ho, hrow⟩ := Tracks.offer ⟨hstanding, hholds⟩ hslot
      have hvalue : (o.ipAddr, o.portNr) = ((c.net.get i).ipAddr, (c.net.get i).portNr) :=
        congrArg Entry.value hrow
      have hkey : o.key = (c.row i).key := congrArg Entry.key hrow
      have htime : o.receivedTimer = (c.net.get i).receivedTimer := congrArg Entry.time hrow
      rw [Prod.mk.injEq] at hvalue
      refine ⟨o, ho, (matches_row hkey).mpr hi, ?_, ?_⟩
      · have hname : o.networkName = (c.net.get i).networkName := congrArg Prod.snd hkey
        rw [hvalue.1, hvalue.2, hname]
      · intro o' ho' hmatch
        obtain ⟨standing, hlast⟩ := hstanding.stands o' ho'
        refine ⟨standing, hlast, htime ▸ ?_⟩
        have hentry : (last o'.key).map LighthouseOffer.entry = some standing.entry := by
          rw [hlast, Option.map_some]
        refine hholds.le_newest
          (p := fun k => ∃ o'' : LighthouseOffer, o''.key = k ∧
            o''.Matches networkName secureConnection)
          hslot ?_ hentry ⟨o', rfl, hmatch⟩
        rintro j e' hother ⟨o'', hkey', hmatch'⟩
        obtain ⟨-, rfl⟩ := entries_eq_some.mp hother
        exact hlatest j ((matches_row hkey').mp hmatch')
  | none =>
      have hnone := getLighthouseConnectstr_none hconnect
      intro o ho hmatch
      obtain ⟨standing, hlast⟩ := hstanding.stands o ho
      have hkey := (hstanding.offered o.key standing hlast).2
      have hmissing : ∀ i e, c.entries i = some e → e.key ≠ standing.key := by
        intro i e hslot hsame
        obtain ⟨-, rfl⟩ := entries_eq_some.mp hslot
        exact hnone i ((matches_row (hkey.symm.trans hsame.symm)).mp hmatch)
      obtain ⟨others, hdistinct, hothers⟩ :=
        Tracks.pushedOut ⟨hstanding, hholds⟩ (hkey ▸ hlast) hmissing
      refine ⟨standing, hlast, others, hdistinct, fun i => ⟨(hothers i).1, ?_, (hothers i).2.2⟩⟩
      intro hmatch'
      have hrow : (others i).key = (c.row i).key :=
        congrArg Entry.key (entries_eq_some.mp (hothers i).2.1).2.symm
      exact hnone i ((matches_row hrow).mp hmatch')

end LighthouseClient

/-! ## Runs -/

/-- A packet, when and from where it is received, and what the buffer had before. -/
structure LighthouseReception (prm : LighthouseClientParams) where
  earlier : LighthouseMessage
  packet : List UInt8
  remoteAddr : List Char
  remoteAddr_fits : remoteAddr.length < prm.ipaddrSz
  receivedTimer : ℤ

structure LighthouseWatch (prm : LighthouseClientParams) where
  client : LighthouseClient prm
  offers : List LighthouseOffer

/-- A packet is received.  Time does not go back, and the names of the packet fit into
their buffers. -/
inductive LighthouseStep (osChecksum : List UInt8 → UInt16) {prm : LighthouseClientParams} :
    LighthouseWatch prm → LighthouseWatch prm → Prop where
  | receive (w : LighthouseWatch prm) (r : LighthouseReception prm) (run : LighthouseRun prm)
      (htime : ∀ o ∈ w.offers, o.receivedTimer ≤ r.receivedTimer)
      (hrun : w.client.runLighthouseClient osChecksum r.earlier r.packet r.remoteAddr
        r.receivedTimer = some run)
      (hnames : ∀ o ∈ run.offers r.receivedTimer, o.networkName.length < prm.ipaddrSz) :
      LighthouseStep osChecksum w ⟨run.client, w.offers ++ run.offers r.receivedTimer⟩

/-- `ioc_initialize_lighthouse_client` clears the structure. -/
def LighthouseStart {prm : LighthouseClientParams} (w : LighthouseWatch prm) : Prop :=
  (∀ i : Fin prm.nroNets, (w.client.net.get i).transport = .defaultTransport) ∧ w.offers = []

theorem LighthouseStart.tracks {prm : LighthouseClientParams} {w : LighthouseWatch prm}
    (h : LighthouseStart w) : ∃ last, w.client.Tracks w.offers last := by
  have hempty : w.client.entries = fun _ => none := by
    funext i
    exact LighthouseClient.entries_unused.mpr (h.1 i)
  refine ⟨fun _ => none, by rw [h.2]; exact .start, ?_⟩
  rw [hempty]
  exact .empty

theorem LighthouseStep.tracks {osChecksum : List UInt8 → UInt16} {prm : LighthouseClientParams}
    {w w' : LighthouseWatch prm} (hstep : LighthouseStep osChecksum w w')
    (h : ∃ last, w.client.Tracks w.offers last) :
    ∃ last, w'.client.Tracks w'.offers last := by
  obtain ⟨last, htracks⟩ := h
  cases hstep with
  | receive r run htime hrun hnames =>
      refine htracks.rememberAll htime (fun o ho => ?_)
        (LighthouseClient.runLighthouseClient_remembers hrun).1
      obtain ⟨haddr, htransport, hnow⟩ := LighthouseClient.mem_offers hrun ho
      exact ⟨haddr ▸ r.remoteAddr_fits, hnames o ho, htransport, hnow⟩

/-- After every run of a client over any packets, it connects to the address which stands
for a network, and finds none only for networks which newer ones have pushed out of a
full table. -/
theorem lighthouse_connects_to_last (osChecksum : List UInt8 → UInt16)
    {prm : LighthouseClientParams} (w : LighthouseWatch prm)
    (hreachable : TransitionSystem.Reachable LighthouseStart (LighthouseStep osChecksum) w)
    (networkName : List Char) (secureConnection : Bool) (connectstrSz : ℕ) :
    w.client.Answers w.offers networkName secureConnection connectstrSz := by
  obtain ⟨last, htracks⟩ : ∃ last, w.client.Tracks w.offers last :=
    TransitionSystem.Reachable.invariant (fun w => ∃ last, w.client.Tracks w.offers last)
      (fun _ hstart => hstart.tracks) (fun _ _ hw hstep => hstep.tracks hw) hreachable
  exact htracks.answers networkName secureConnection connectstrSz

def LighthouseWatch.receive (osChecksum : List UInt8 → UInt16) {prm : LighthouseClientParams}
    (w : LighthouseWatch prm) (r : LighthouseReception prm) : Option (LighthouseWatch prm) := do
  let run ← w.client.runLighthouseClient osChecksum r.earlier r.packet r.remoteAddr
    r.receivedTimer
  if (∀ o ∈ w.offers, o.receivedTimer ≤ r.receivedTimer) ∧
      ∀ o ∈ run.offers r.receivedTimer, o.networkName.length < prm.ipaddrSz then
    some ⟨run.client, w.offers ++ run.offers r.receivedTimer⟩
  else none

theorem LighthouseWatch.receive_step {osChecksum : List UInt8 → UInt16}
    {prm : LighthouseClientParams} {w w' : LighthouseWatch prm} {r : LighthouseReception prm}
    (h : w.receive osChecksum r = some w') : LighthouseStep osChecksum w w' := by
  simp only [LighthouseWatch.receive, Option.bind_eq_bind, Option.bind_eq_some_iff] at h
  obtain ⟨run, hrun, h⟩ := h
  split_ifs at h with hall
  obtain rfl := Option.some.inj h
  exact .receive w r run hall.1 hrun hall.2

/-- The network `cafenet` is received from this address. -/
def cafeReception (remoteAddr : List Char) (hfits : remoteAddr.length < 46)
    (receivedTimer : ℤ) : LighthouseReception lighthouseClientIpv4 where
  earlier := newMessage
  packet := lighthouseMulticast 0xe513 cafeText
  remoteAddr := remoteAddr
  remoteAddr_fits := hfits
  receivedTimer := receivedTimer

def cafeReceptions : List (LighthouseReception lighthouseClientIpv4) :=
  [cafeReception "10.0.0.1".toList (by decide) 0, cafeReception "127.0.0.1".toList (by decide) 5,
    cafeReception "10.0.0.1".toList (by decide) 2000]

theorem lighthouse_connects_to_last_cafenet :
    ∃ w : LighthouseWatch lighthouseClientIpv4,
      w.client.Answers w.offers "cafenet".toList false 32 ∧ w.offers.length = 3 ∧
        w.client.getLighthouseConnectstr "cafenet".toList false 32 =
          (.ok, some ⟨"127.0.0.1:6368".toList, "cafenet".toList⟩) := by
  have hruns : (cafeReceptions.foldlM (LighthouseWatch.receive fun _ => 0xe513)
      ⟨newLighthouseClient, []⟩).map (fun w => (w.offers.length,
        w.client.getLighthouseConnectstr "cafenet".toList false 32)) =
      some (3, .ok, some ⟨"127.0.0.1:6368".toList, "cafenet".toList⟩) := by
    decide +kernel
  obtain ⟨w, hw, hfacts⟩ := Option.map_eq_some_iff.mp hruns
  rw [Prod.mk.injEq] at hfacts
  have hstart : LighthouseStart ⟨newLighthouseClient, []⟩ := ⟨by decide, rfl⟩
  exact ⟨w, lighthouse_connects_to_last _ w
    (.play (fun _ _ _ => LighthouseWatch.receive_step) (.start hstart) hw) _ _ _, hfacts⟩

end Iocom
