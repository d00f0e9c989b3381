import Iocom.Switchbox
import Mathlib.Tactic.IntervalCases

/-!
# Turns of switchbox clients

When the loop which moves the clients' data to the shared socket ends, and which client
is served first.
-/

namespace Iocom

/-! ## The end of the loop -/

def SwitchboxClient.demand (ready : SwitchboxClient → Bool) (c : SwitchboxClient) : ℕ :=
  if !ready c || c.incoming.bytes.isEmpty then 0 else sboxHdrSize + c.incoming.bytes.length

namespace ServeState

variable {ready : SwitchboxClient → Bool} {s : ServeState} {i : ℕ}

/-- The demand of the client at `i`. -/
def demandAt (ready : SwitchboxClient → Bool) (s : ServeState) (i : ℕ) : ℕ :=
  match s.clients[i]? with
  | none => 0
  | some c => c.demand ready

theorem length_msgHeader (clientId : UInt16) (dataLen : ℤ) :
    (msgHeader clientId dataLen).length = sboxHdrSize := rfl

@[simp] theorem space_put {r : OsalRingBuf} {data : List UInt8} :
    (r.put data).space = r.space - data.length := by
  have h := r.fits
  simp only [OsalRingBuf.put, OsalRingBuf.space, List.length_append, List.length_take]
  omega

variable (ready i) in
/-- A visited client which is served changes nothing else than its own buffer and the
outgoing one. -/
theorem serve_spec (hspace : sboxHdrSize + 1 ≤ s.outgoing.space) :
    ((s.visit i).serve ready i).clients.length = s.clients.length ∧
    ((s.visit i).serve ready i).visited = s.visited ++ [i] ∧
    ((s.visit i).serve ready i).outgoing.space = s.outgoing.space - s.demandAt ready i ∧
    ∀ j, j ≠ i → ((s.visit i).serve ready i).demandAt ready j = s.demandAt ready j := by
  unfold serve demandAt
  cases hc : s.clients[i]? with
  | none => simp [visit, hc]
  | some c =>
      by_cases hskip : (!ready c || c.incoming.bytes.isEmpty) = true
      · simp [visit, hc, hskip, SwitchboxClient.demand]
      · have hstored : ∀ n : ℤ, storeMsgHeaderToRingbuf s.outgoing c.clientId n =
            some (s.outgoing.put (msgHeader c.clientId n)) := by
          intro n
          simp only [storeMsgHeaderToRingbuf]
          rw [if_neg (by omega)]
        simp only [visit, hc, hskip, Bool.false_eq_true, if_false, hstored, Option.getD_some,
          switchboxRingbufMove, SwitchboxClient.demand, space_put, length_msgHeader,
          List.length_set, true_and]
        refine ⟨?_, fun j hj => ?_⟩
        · simp only [List.length_take]
          omega
        · rw [List.getElem?_set_ne (Ne.symm hj)]

/-- What the next `m` clients from `i` on demand, without the last of them. -/
def need (ready : SwitchboxClient → Bool) (s : ServeState) (i m : ℕ) : ℕ :=
  ((RoundWalk.walk s.clients.length i m).dropLast.map (s.demandAt ready)).sum

variable {m current : ℕ}

theorem need_one : s.need ready i 1 = 0 := by simp [need]

theorem need_serve (hspace : sboxHdrSize + 1 ≤ s.outgoing.space) (hi : i < s.clients.length)
    (hm : m + 1 < s.clients.length) :
    s.need ready i (m + 2) = s.demandAt ready i +
      ((s.visit i).serve ready i).need ready (RoundWalk.next s.clients.length i) (m + 1) := by
  obtain ⟨hlength, -, -, hothers⟩ := serve_spec ready i hspace
  have hnodup := RoundWalk.walk_nodup (m := m + 2) hi (by omega)
  rw [RoundWalk.walk_succ, List.nodup_cons] at hnodup
  have hsame : ((RoundWalk.walk s.clients.length (RoundWalk.next s.clients.length i)
      (m + 1)).dropLast.map (((s.visit i).serve ready i).demandAt ready)) =
      (RoundWalk.walk s.clients.length (RoundWalk.next s.clients.length i)
        (m + 1)).dropLast.map (s.demandAt ready) := by
    apply List.map_congr_left
    intro j hj
    apply hothers
    rintro rfl
    exact hnodup.1 (List.dropLast_subset _ hj)
  simp only [need, hlength, hsame]
  rw [RoundWalk.walk_succ, List.dropLast_cons_of_ne_nil (by simp), List.map_cons, List.sum_cons]

theorem next_ne_current (hi : i < s.clients.length) (hm : m + 1 < s.clients.length)
    (hcurrent : current = (i + (m + 2)) % s.clients.length) :
    RoundWalk.next s.clients.length i ≠ current := by
  rw [RoundWalk.next_eq_mod hi, hcurrent]
  intro hmod
  have hzero : Nat.ModEq s.clients.length 0 (m + 1) :=
    Nat.ModEq.add_left_cancel' (i + 1) (by
      change (i + 1 + 0) % _ = (i + 1 + (m + 1)) % _
      rw [Nat.add_zero, hmod]
      congr 1
      omega)
  have hlt := Nat.ModEq.eq_of_lt_of_lt hzero (by omega) hm
  omega

theorem current_of_next (hi : i < s.clients.length)
    (hcurrent : current = (i + (m + 2)) % s.clients.length) :
    current = (RoundWalk.next s.clients.length i + (m + 1)) % s.clients.length := by
  rw [hcurrent, RoundWalk.next_eq_mod hi, Nat.mod_add_mod]
  congr 1
  omega

theorem serveLoop_of_space {fuel : ℕ} (hspace : sboxHdrSize + 1 ≤ s.outgoing.space) :
    serveLoop ready current (fuel + 1) i s =
      if RoundWalk.next s.clients.length i ≠ current then
        serveLoop ready current fuel (RoundWalk.next s.clients.length i)
          ((s.visit i).serve ready i)
      else some ((s.visit i).serve ready i) := by
  have hfree : ¬(s.visit i).outgoing.space < sboxHdrSize + 1 := by
    simp only [visit]
    omega
  rw [serveLoop]
  simp only [if_neg hfree]
  rfl

variable (ready) in
/-- Where there is space for all of them, the loop visits the clients once. -/
theorem serveLoop_ends (hi : i < s.clients.length) (hm : m < s.clients.length)
    (hcurrent : current = (i + (m + 1)) % s.clients.length)
    (hneed : s.need ready i (m + 1) + (sboxHdrSize + 1) ≤ s.outgoing.space) :
    ∃ t, serveLoop ready current (m + 1) i s = some t ∧
      t.visited = s.visited ++ RoundWalk.walk s.clients.length i (m + 1) := by
  have hspace : sboxHdrSize + 1 ≤ s.outgoing.space := by omega
  obtain ⟨hlength, hvisited, hleft, -⟩ := serve_spec ready i hspace
  induction m generalizing i s with
  | zero =>
      have hnext : RoundWalk.next s.clients.length i = current := by
        rw [hcurrent, RoundWalk.next_eq_mod hi]
      refine ⟨_, ?_, hvisited⟩
      rw [serveLoop_of_space hspace, if_neg (by simpa using hnext)]
  | succ m ih =>
      rw [need_serve hspace hi (by omega)] at hneed
      have hneed' : ((s.visit i).serve ready i).need ready (RoundWalk.next s.clients.length i)
          (m + 1) + (sboxHdrSize + 1) ≤ ((s.visit i).serve ready i).outgoing.space := by
        rw [hleft]
        omega
      have hspec := serve_spec ready (RoundWalk.next s.clients.length i)
        (s := (s.visit i).serve ready i) (by omega)
      obtain ⟨t, hrun, ht⟩ := ih (by rw [hlength]; exact RoundWalk.next_lt hi)
        (by rw [hlength]; omega) (by rw [hlength]; exact current_of_next hi hcurrent) hneed'
        (by omega) hspec.1 hspec.2.1 hspec.2.2.1
      refine ⟨t, ?_, ?_⟩
      · rw [serveLoop_of_space hspace, if_pos (next_ne_current hi (by omega) hcurrent)]
        exact hrun
      · rw [ht, hvisited, hlength]
        simp

variable (ready) in
/-- Where there is not, and it does not end at once, it never ends. -/
theorem serveLoop_hangs (hi : i < s.clients.length) (hm : m < s.clients.length)
    (hcurrent : current = (i + (m + 1)) % s.clients.length)
    (hneed : ¬s.need ready i (m + 1) + (sboxHdrSize + 1) ≤ s.outgoing.space)
    (hstart : i ≠ current ∨ sboxHdrSize + 1 ≤ s.outgoing.space) (fuel : ℕ) :
    serveLoop ready current fuel i s = none := by
  induction fuel generalizing i s m with
  | zero => rfl
  | succ fuel ih =>
      by_cases hspace : sboxHdrSize + 1 ≤ s.outgoing.space
      · obtain ⟨hlength, -, hleft, -⟩ := serve_spec ready i hspace
        cases m with
        | zero =>
            rw [need_one] at hneed
            omega
        | succ m =>
            have hne := next_ne_current hi (by omega) hcurrent
            rw [need_serve hspace hi (by omega)] at hneed
            rw [serveLoop_of_space hspace, if_pos hne]
            apply ih (m := m)
            · rw [hlength]
              exact RoundWalk.next_lt hi
            · rw [hlength]
              omega
            · rw [hlength]
              exact current_of_next hi hcurrent
            · rw [hleft]
              omega
            · exact .inl hne
      · have hfull : (s.visit i).outgoing.space < sboxHdrSize + 1 := by
          simp only [visit]
          omega
        have hne : i ≠ current := hstart.resolve_right hspace
        rw [serveLoop]
        simp only [if_pos hfull, if_pos hne]
        exact ih (s := s.visit i) hi hm hcurrent hneed (.inl hne)

end ServeState

def SwitchboxServer.roundDemand (ready : SwitchboxClient → Bool) (s : SwitchboxServer)
    (current : ℕ) : ℕ :=
  ((s.clients.rotate current).dropLast.map (SwitchboxClient.demand ready)).sum

/-- The loop ends at once, or there is space left for a header and one byte when the last
client is visited. -/
def SwitchboxServer.RoundFits (ready : SwitchboxClient → Bool) (s : SwitchboxServer)
    (current : ℕ) : Prop :=
  s.outgoing.space < sboxHdrSize + 1 ∨
    s.roundDemand ready current + (sboxHdrSize + 1) ≤ s.outgoing.space

namespace ServeState

variable {ready : SwitchboxClient → Bool} {s : SwitchboxServer} {current : ℕ}

variable (ready) in
theorem need_round (hcurrent : current < s.clients.length) :
    need ready ⟨s.clients, s.outgoing, []⟩ current s.clients.length =
      s.roundDemand ready current := by
  have hdemand : demandAt ready ⟨s.clients, s.outgoing, []⟩ =
      fun k => (s.clients.map (SwitchboxClient.demand ready)).getD k 0 := by
    funext k
    simp only [demandAt, List.getD_eq_getElem?_getD, List.getElem?_map]
    cases s.clients[k]? <;> rfl
  have hwalk : (RoundWalk.walk s.clients.length current s.clients.length).map
      (demandAt ready ⟨s.clients, s.outgoing, []⟩) =
      (s.clients.rotate current).map (SwitchboxClient.demand ready) := by
    have hmap := RoundWalk.walk_map_getD (s.clients.map (SwitchboxClient.demand ready)) 0
      (i := current) (by simpa using hcurrent)
    rw [List.length_map] at hmap
    rw [hdemand, hmap, List.map_rotate]
  rw [need, SwitchboxServer.roundDemand, List.map_dropLast, hwalk, List.map_dropLast]

theorem serveLoop_ends_iff (hcurrent : current < s.clients.length) :
    (∃ fuel t, serveLoop ready current fuel current ⟨s.clients, s.outgoing, []⟩ = some t ∧
      t.visited.Nodup) ↔ s.RoundFits ready current := by
  obtain ⟨m, hm⟩ : ∃ m, s.clients.length = m + 1 := ⟨s.clients.length - 1, by omega⟩
  have hneed := need_round ready hcurrent
  rw [hm] at hneed
  have hround : current = (current + (m + 1)) % s.clients.length := by
    rw [← hm, Nat.add_mod_right, Nat.mod_eq_of_lt hcurrent]
  constructor
  · rintro ⟨fuel, t, hrun, -⟩
    by_contra hfits
    simp only [SwitchboxServer.RoundFits, not_or] at hfits
    have hnone := serveLoop_hangs ready (s := ⟨s.clients, s.outgoing, []⟩) hcurrent
      (by change m < s.clients.length; omega) hround (by rw [hneed]; exact hfits.2)
      (.inr (by simpa using hfits.1)) fuel
    rw [hnone] at hrun
    cases hrun
  · rintro (hfull | hfits)
    · refine ⟨1, ServeState.visit ⟨s.clients, s.outgoing, []⟩ current, ?_, by simp [visit]⟩
      simp [serveLoop, visit, hfull]
    · obtain ⟨t, hrun, ht⟩ := serveLoop_ends ready
        (s := ⟨s.clients, s.outgoing, []⟩) hcurrent (by change m < s.clients.length; omega) hround
        (by rw [hneed]; exact hfits)
      refine ⟨m + 1, t, hrun, ?_⟩
      rw [ht, List.nil_append]
      exact RoundWalk.walk_nodup hcurrent (Nat.le_of_eq hm.symm)

end ServeState

/-- The loops which move data to the shared
socket end, after visiting each client at most once, exactly when there is no space for a
header and one byte to begin with, or still is when the last client of the round is
visited. -/
theorem switchbox_serving_ends (s : SwitchboxServer) (current : Fin s.clients.length) :
    ((∃ fuel t, moveToSharedSocket fuel current s = some t ∧ t.visited.Nodup) ↔
      s.RoundFits (fun _ => true) current) ∧
    ((∃ fuel t, moveToService fuel current s = some t ∧ t.visited.Nodup) ↔
      s.RoundFits SwitchboxClient.newConnectionMsgSent current) :=
  ⟨ServeState.serveLoop_ends_iff current.isLt, ServeState.serveLoop_ends_iff current.isLt⟩

def emptyRingBuf : OsalRingBuf := ⟨10, [], by decide⟩

def fullSwitchbox : SwitchboxServer where
  clients := [⟨1, ⟨10, [1, 2, 3, 4], by decide⟩, true⟩, ⟨2, ⟨10, [5], by decide⟩, true⟩]
  outgoing := emptyRingBuf
  currentIx := 0

/-- The loop hangs at the second client. -/
theorem switchbox_serving_hangs :
    ¬(∃ fuel t, moveToSharedSocket fuel 0 fullSwitchbox = some t ∧ t.visited.Nodup) ∧
    ¬(∃ fuel t, moveToService fuel 0 fullSwitchbox = some t ∧ t.visited.Nodup) := by
  have hfits : ∀ ready : SwitchboxClient → Bool, (∀ c, c.newConnectionMsgSent → ready c) →
      ¬fullSwitchbox.RoundFits ready 0 := by
    intro ready hready
    have hfirst : ready ⟨1, ⟨10, [1, 2, 3, 4], by decide⟩, true⟩ = true := hready _ rfl
    simp [SwitchboxServer.RoundFits, SwitchboxServer.roundDemand, fullSwitchbox, emptyRingBuf,
      OsalRingBuf.space, SwitchboxClient.demand, sboxHdrSize, hfirst]
  have hzero : 0 < fullSwitchbox.clients.length := by decide
  constructor
  · exact fun h => hfits _ (fun _ _ => rfl) ((ServeState.serveLoop_ends_iff hzero).mp h)
  · exact fun h => hfits _ (fun _ h => h) ((ServeState.serveLoop_ends_iff hzero).mp h)

/-! ## The client which is served first -/

inductive SwitchboxEnd
  | sharedSocket
  | service
  deriving DecidableEq

namespace SwitchboxEnd

/-- The selection of the client to serve first. -/
def select : SwitchboxEnd → SwitchboxServer → SwitchboxServer × Option ℕ
  | sharedSocket => selectIndividualSocket
  | service => selectConnection

inductive Reached (e : SwitchboxEnd) : SwitchboxServer → Prop
  | start (outgoing) : Reached e ⟨[], outgoing, 0⟩
  | connect {s} (c) (hnew : c.newConnectionMsgSent = false) :
      Reached e s → Reached e { s with clients := s.clients ++ [c] }
  | drop {s} (i) : Reached e s → Reached e { s with clients := s.clients.eraseIdx i }
  | transfer {s} (clients outgoing)
      (hsame : clients.map SwitchboxClient.newConnectionMsgSent =
        s.clients.map SwitchboxClient.newConnectionMsgSent) :
      Reached e s → Reached e { s with clients := clients, outgoing := outgoing }
  | run {s} : Reached e s → Reached e (e.select s).1

/-- The servers at the beginning of `n` runs one after the other, with `n` clients of
which all connection messages have been sent. -/
structure Turns (e : SwitchboxEnd) (n : ℕ) (servers : ℕ → SwitchboxServer) : Prop where
  reached : e.Reached (servers 0)
  clients : ∀ k < n, (servers k).clients.length = n
  sent : e = service → ∀ k < n, ∀ c ∈ (servers k).clients, c.newConnectionMsgSent
  next : ∀ k, k + 1 < n → (servers (k + 1)).currentIx = (e.select (servers k)).1.currentIx

/-- Each client is once the one which is served first. -/
def Fair (e : SwitchboxEnd) (n : ℕ) (servers : ℕ → SwitchboxServer) : Prop :=
  ∀ p < n, ∃! k, k < n ∧ (e.select (servers k)).2 = some p

end SwitchboxEnd

theorem selectIndividualSocket_eq {s : SwitchboxServer} (hpos : 0 < s.clients.length) :
    selectIndividualSocket s =
      ({ s with currentIx := osInt (s.currentIx + 1) },
        some (if 0 ≤ osInt (s.currentIx + 1) ∧ osInt (s.currentIx + 1) < s.clients.length then
          (osInt (s.currentIx + 1)).toNat else 0)) := by
  have hfound : ∀ (ix : ℤ) (n : ℕ), (List.range n).foldl
      (fun (found : Option ℕ) (i : ℕ) => if (i : ℤ) = ix then some i else found) none =
      if 0 ≤ ix ∧ ix < n then some ix.toNat else none := by
    intro ix n
    induction n with
    | zero => simp
    | succ n ih =>
        rw [List.range_succ, List.foldl_append, ih, List.foldl_cons, List.foldl_nil]
        by_cases hlast : (n : ℤ) = ix
        · subst hlast
          simp
        · have hiff : (0 ≤ ix ∧ ix < ((n + 1 : ℕ) : ℤ)) ↔ 0 ≤ ix ∧ ix < n := by omega
          simp only [hlast, if_false, hiff]
  have hne : s.clients ≠ [] := List.ne_nil_of_length_pos hpos
  simp only [selectIndividualSocket, hfound]
  split_ifs <;> rfl

namespace ServiceScan

variable {ix : ℤ}

theorem visit_of_sent {scan : ServiceScan} {c : SwitchboxClient}
    (hsent : c.newConnectionMsgSent = true) :
    scan.visit ix c = ⟨scan.clients ++ [c], scan.outgoing,
      if (scan.clients.length : ℤ) ≤ ix ∧ scan.current = none then some scan.clients.length
      else scan.current⟩ := by
  simp only [visit, hsent, if_true]
  split_ifs <;> rfl

theorem foldl_clients {clients : List SwitchboxClient} {scan : ServiceScan}
    (hsent : ∀ c ∈ clients, c.newConnectionMsgSent = true) :
    (clients.foldl (visit ix) scan).clients = scan.clients ++ clients := by
  induction clients generalizing scan with
  | nil => simp
  | cons c clients ih =>
      rw [List.foldl_cons, ih fun d hd => hsent d (by simp [hd]),
        visit_of_sent (hsent c (by simp))]
      simp

theorem foldl_current {clients : List SwitchboxClient} {scan : ServiceScan} {i : ℕ}
    (hsent : ∀ c ∈ clients, c.newConnectionMsgSent = true) (hscan : scan.current = some i) :
    (clients.foldl (visit ix) scan).current = some i := by
  induction clients generalizing scan with
  | nil => exact hscan
  | cons c clients ih =>
      rw [List.foldl_cons, visit_of_sent (hsent c (by simp))]
      exact ih (fun d hd => hsent d (by simp [hd])) (by simp [hscan])

theorem foldl_current_of_neg {clients : List SwitchboxClient} {scan : ServiceScan}
    (hsent : ∀ c ∈ clients, c.newConnectionMsgSent = true) (hix : ix < 0)
    (hscan : scan.current = none) : (clients.foldl (visit ix) scan).current = none := by
  induction clients generalizing scan with
  | nil => exact hscan
  | cons c clients ih =>
      have hlate : ¬(scan.clients.length : ℤ) ≤ ix := by omega
      rw [List.foldl_cons, visit_of_sent (hsent c (by simp))]
      exact ih (fun d hd => hsent d (by simp [hd])) (by simp [hscan, hlate])

end ServiceScan

/-- With all connection messages sent the first connection is always the selected one. -/
theorem selectConnection_snd {s : SwitchboxServer} (hpos : 0 < s.clients.length)
    (hsent : ∀ c ∈ s.clients, c.newConnectionMsgSent = true) :
    (selectConnection s).2 = some 0 := by
  obtain ⟨clients, outgoing, currentIx⟩ := s
  obtain ⟨c, clients, rfl⟩ := List.exists_cons_of_length_pos hpos
  have hfirst : c.newConnectionMsgSent = true := hsent c (by simp)
  have hrest : ∀ d ∈ clients, d.newConnectionMsgSent = true := fun d hd => hsent d (by simp [hd])
  simp only [selectConnection]
  by_cases hix : 0 ≤ osInt (currentIx + 1)
  · have hcurrent : ((c :: clients).foldl (ServiceScan.visit (osInt (currentIx + 1)))
        ⟨[], outgoing, none⟩).current = some 0 := by
      rw [List.foldl_cons, ServiceScan.visit_of_sent hfirst]
      exact ServiceScan.foldl_current hrest (by simp [hix])
    rw [hcurrent]
  · have hcurrent : ((c :: clients).foldl (ServiceScan.visit (osInt (currentIx + 1)))
        ⟨[], outgoing, none⟩).current = none :=
      ServiceScan.foldl_current_of_neg hsent (Int.not_le.mp hix) rfl
    have hclients : ((c :: clients).foldl (ServiceScan.visit (osInt (currentIx + 1)))
        ⟨[], outgoing, none⟩).clients = [] ++ c :: clients := ServiceScan.foldl_clients hsent
    rw [hcurrent, hclients]
    simp [List.findIdx?_cons, hfirst]

/-! ## Fairness -/

namespace SwitchboxEnd

theorem Reached.range {s : SwitchboxServer} (h : sharedSocket.Reached s) :
    -2147483648 ≤ s.currentIx ∧ s.currentIx < 2147483648 := by
  induction h with
  | start outgoing => simp
  | connect c hnew h ih => exact ih
  | drop i h ih => exact ih
  | transfer clients outgoing hsame h ih => exact ih
  | run h ih => exact osInt_bounds _

variable {n : ℕ} {servers : ℕ → SwitchboxServer}

/-- The counter of the shared socket in the run `k`. -/
theorem Turns.currentIx (h : sharedSocket.Turns n servers) {k : ℕ} (hk : k < n) :
    osInt ((servers k).currentIx + 1) = osInt ((servers 0).currentIx + 1 + k) := by
  induction k with
  | zero => simp
  | succ k ih =>
      have hpos : 0 < (servers k).clients.length := by
        rw [h.clients k (by omega)]
        omega
      have hnext := h.next k hk
      simp only [select, selectIndividualSocket_eq hpos] at hnext
      rw [hnext, ih (by omega)]
      simp only [osInt, Int.bmod_add_bmod]
      congr 1
      push_cast
      omega

theorem Turns.service_fair_iff (hn : 1 ≤ n) (h : service.Turns n servers) :
    service.Fair n servers ↔ n = 1 := by
  have hfirst : ∀ k < n, (service.select (servers k)).2 = some 0 := by
    intro k hk
    exact selectConnection_snd (by rw [h.clients k hk]; omega) (h.sent rfl k hk)
  constructor
  · intro hfair
    by_contra hne
    obtain ⟨k, ⟨hk, hone⟩, -⟩ := hfair 1 (by omega)
    rw [hfirst k hk] at hone
    simp at hone
  · rintro rfl p hp
    obtain rfl : p = 0 := by omega
    exact ⟨0, ⟨by omega, hfirst 0 (by omega)⟩, fun k hk => by omega⟩

/-- The position of the client which the shared socket serves first in the run `k`. -/
theorem Turns.first (h : sharedSocket.Turns n servers) {k : ℕ} (hk : k < n) :
    (sharedSocket.select (servers k)).2 =
      some (if 0 ≤ osInt ((servers 0).currentIx + 1 + k) ∧
          osInt ((servers 0).currentIx + 1 + k) < n then
        (osInt ((servers 0).currentIx + 1 + k)).toNat else 0) := by
  have hlength := h.clients k hk
  simp only [select, selectIndividualSocket_eq (show 0 < (servers k).clients.length by omega),
    h.currentIx hk, hlength]

/-- The client after the first is served when the counter is at it. -/
theorem Turns.first_eq_iff (h : sharedSocket.Turns n servers) {k p : ℕ} (hk : k < n) (hp : p < n)
    (hpos : 0 < p) :
    (sharedSocket.select (servers k)).2 = some p ↔
      osInt ((servers 0).currentIx + 1 + k) = p := by
  rw [h.first hk, Option.some.injEq]
  generalize osInt ((servers 0).currentIx + 1 + k) = ix
  split_ifs with hix <;> omega

/-- The shared socket is fair to its only client, and in its first runs. -/
theorem Turns.sharedSocket_fair_iff (hn : 1 ≤ n) (h : sharedSocket.Turns n servers) :
    sharedSocket.Fair n servers ↔
      n = 1 ∨ (((servers 0).currentIx = -1 ∨ (servers 0).currentIx = 0) ∧ n ≤ 2147483648) := by
  have hrange := h.reached.range
  constructor
  · intro hfair
    by_contra hcontra
    rw [not_or] at hcontra
    obtain ⟨hne, hturn⟩ := hcontra
    obtain ⟨k, ⟨hk, hone⟩, -⟩ := hfair 1 (by omega)
    obtain ⟨l, ⟨hl, hlast⟩, -⟩ := hfair (n - 1) (by omega)
    rw [h.first_eq_iff hk (by omega) (by omega)] at hone
    rw [h.first_eq_iff hl (by omega) (by omega)] at hlast
    have hbound := osInt_bounds ((servers 0).currentIx + 1 + l)
    have hsmall : n ≤ 2147483648 := by omega
    have hwrapped : ∀ j : ℕ, j < n → 0 < osInt ((servers 0).currentIx + 1 + j) →
        osInt ((servers 0).currentIx + 1 + j) = (servers 0).currentIx + 1 + j := by
      intro j hj hpos
      by_cases hhigh : (servers 0).currentIx + 1 + j < 2147483648
      · exact osInt_of_range (by omega) hhigh
      · exfalso
        unfold osInt at hpos
        rw [Int.bmod_def] at hpos
        omega
    rw [hwrapped k hk (by omega)] at hone
    rw [hwrapped l hl (by omega)] at hlast
    omega
  · intro hturn
    obtain ⟨a, ha, hfirst⟩ : ∃ a ≤ 1, ∀ k < n, (sharedSocket.select (servers k)).2 =
        some (if a + k < n then a + k else 0) := by
      rcases hturn with rfl | ⟨hturn, hsmall⟩
      · refine ⟨1, le_rfl, fun k hk => ?_⟩
        have honly : ∀ ix : ℤ, (if 0 ≤ ix ∧ ix < ((1 : ℕ) : ℤ) then ix.toNat else 0) = 0 := by
          intro ix
          split_ifs <;> omega
        rw [h.first hk, if_neg (show ¬1 + k < 1 by omega), honly]
      · obtain ⟨a, ha, hstart⟩ : ∃ a : ℕ, a ≤ 1 ∧ (servers 0).currentIx + 1 = a := by
          rcases hturn with hturn | hturn
          · exact ⟨0, by omega, by omega⟩
          · exact ⟨1, le_rfl, by omega⟩
        refine ⟨a, ha, fun k hk => ?_⟩
        have hix : osInt ((a : ℤ) + k) = a + k ∨ osInt ((a : ℤ) + k) < 0 ∧ ¬a + k < n := by
          by_cases hhigh : (a : ℤ) + k < 2147483648
          · exact .inl (osInt_of_range (by omega) hhigh)
          · right
            unfold osInt
            rw [Int.bmod_def]
            omega
        rw [h.first hk, hstart]
        generalize osInt ((a : ℤ) + k) = ix at hix ⊢
        congr 1
        split_ifs <;> omega
    intro p hp
    refine ⟨if a ≤ p then p - a else n - 1, ⟨by split_ifs <;> omega, ?_⟩, ?_⟩
    · rw [hfirst _ (by split_ifs <;> omega)]
      congr 1
      split_ifs <;> omega
    · rintro k ⟨hk, hserved⟩
      rw [hfirst k hk, Option.some.injEq] at hserved
      split_ifs at hserved ⊢ <;> omega

end SwitchboxEnd

/-- In `n` runs one after the other the service connection serves
each client first once only when there is one client.  The shared socket does so in its
first runs as well, when its counter comes to the first client. -/
theorem switchbox_turns_fair {e : SwitchboxEnd} {n : ℕ} {servers : ℕ → SwitchboxServer}
    (hn : 1 ≤ n) (h : e.Turns n servers) :
    e.Fair n servers ↔ n = 1 ∨
      (e = .sharedSocket ∧ ((servers 0).currentIx = -1 ∨ (servers 0).currentIx = 0) ∧
        n ≤ 2147483648) := by
  cases e with
  | sharedSocket => simpa using h.sharedSocket_fair_iff hn
  | service => simpa using h.service_fair_iff hn

def twoClients : SwitchboxServer where
  clients := [⟨1, emptyRingBuf, false⟩, ⟨2, emptyRingBuf, false⟩]
  outgoing := ⟨20, [], by decide⟩
  currentIx := 0

/-- The two clients after `k` runs in which they send nothing. -/
def twoClientsAfter (e : SwitchboxEnd) (k : ℕ) : SwitchboxServer :=
  (fun s => (e.select s).1)^[k] twoClients

theorem twoClientsAfter_reached (e : SwitchboxEnd) (k : ℕ) :
    e.Reached (twoClientsAfter e k) := by
  induction k with
  | zero => exact ((SwitchboxEnd.Reached.start _).connect _ rfl).connect _ rfl
  | succ k ih =>
      rw [twoClientsAfter, Function.iterate_succ_apply']
      exact ih.run

theorem twoClients_turns (e : SwitchboxEnd) (start : ℕ) (hsent : e = .service → 1 ≤ start)
    (hstart : start ≤ 1) : e.Turns 2 fun k => twoClientsAfter e (start + k) where
  reached := twoClientsAfter_reached e start
  clients := by
    intro k hk
    interval_cases start <;> interval_cases k <;> cases e <;> decide
  sent := by
    rintro rfl k hk
    obtain rfl : start = 1 := by
      have hone := hsent rfl
      omega
    interval_cases k <;> decide
  next := by
    intro k _
    change (twoClientsAfter e (start + k + 1)).currentIx = _
    rw [twoClientsAfter, Function.iterate_succ_apply']
    rfl

/-- The first two runs of the shared socket are fair to both clients. -/
theorem switchbox_turns_first :
    SwitchboxEnd.sharedSocket.Fair 2 fun k => twoClientsAfter .sharedSocket (0 + k) :=
  (switchbox_turns_fair (by decide)
    (twoClients_turns .sharedSocket 0 (by decide) (by decide))).mpr
    (.inr ⟨rfl, .inr rfl, by decide⟩)

/-- After one run neither end is fair to both clients any more. -/
theorem switchbox_turns_unfair :
    (SwitchboxEnd.sharedSocket.Turns 2 (fun k => twoClientsAfter .sharedSocket (1 + k)) ∧
      ¬SwitchboxEnd.sharedSocket.Fair 2 fun k => twoClientsAfter .sharedSocket (1 + k)) ∧
    (SwitchboxEnd.service.Turns 2 (fun k => twoClientsAfter .service (1 + k)) ∧
      ¬SwitchboxEnd.service.Fair 2 fun k => twoClientsAfter .service (1 + k)) := by
  have hshared := twoClients_turns .sharedSocket 1 (by decide) le_rfl
  have hservice := twoClients_turns .service 1 (by decide) le_rfl
  refine ⟨⟨hshared, ?_⟩, hservice, ?_⟩
  · rw [hshared.sharedSocket_fair_iff (by decide)]
    decide
  · rw [hservice.service_fair_iff (by decide)]
    decide

end Iocom
