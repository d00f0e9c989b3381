import Iocom.ReservationTable
import Iocom.Lib.TransitionSystem

/-!
# Device numbers of connections

A root gives a number to a connection when a device asks for one: a reserved number for a
unique identifier, and without one a random number which no connection has.  The number and
the identifier stay with the connection object when it is closed.
-/

namespace Iocom

/-- The fields of `iocConnection` which a device number depends on. -/
structure DeviceConnection (sizes : AutoNrSizes) where
  uniqueIdBin : UniqueId sizes
  autoDeviceNr : ℕ
  connected : Bool
  deriving DecidableEq

/-- The connections of a root, in the order in which they were initialized, `none` when they
have been released, and its automatic device numbers.  `given` has the numbers which have
been given so far, with whether there was a unique identifier. -/
structure DeviceNumberRoot (sizes : AutoNrSizes) where
  autoDeviceNr : ℕ
  reservations : Reservations sizes
  cons : List (Option (DeviceConnection sizes))
  given : List (ℕ × Bool)

variable {sizes : AutoNrSizes}

def numberUsed (cons : List (Option (DeviceConnection sizes))) (id : ℕ) : Bool :=
  cons.any fun slot => slot.any fun con => decide (id = con.autoDeviceNr)

def drawNumber (cons : List (Option (DeviceConnection sizes))) (draw : ℕ → ℕ) : ℕ → ℕ
  | 0 => 1
  | count + 1 => if numberUsed cons (draw count) then drawNumber cons draw count else draw count

namespace DeviceNumberRoot

/-- `ioc_get_automatic_device_nr`; `draw` are the results of `osal_rand`. -/
def getAutomaticDeviceNr (root : DeviceNumberRoot sizes) (uniqueIdBin : UniqueId sizes)
    (draw : ℕ → ℕ) : ℕ × DeviceNumberRoot sizes :=
  if uniqueIdBin ≠ noUniqueId sizes then
    ((getReservedAutonr uniqueIdBin root.reservations.saved).1,
      { root with reservations := root.reservations.call uniqueIdBin })
  else
    (drawNumber root.cons draw 100000,
      { root with
        autoDeviceNr :=
          if root.autoDeviceNr ≠ 0 then (root.autoDeviceNr + 1) % 0x100000000
          else root.autoDeviceNr })

inductive Action (sizes : AutoNrSizes) where
  /-- `ioc_initialize_connection`. -/
  | newConnection
  /-- `ioc_process_received_authentication_message`. -/
  | authenticate (i : ℕ) (uniqueIdBin : UniqueId sizes)
  /-- The first frame has been processed. -/
  | connect (i : ℕ)
  /-- `ioc_process_received_mbinfo_frame` with the device number `IOC_AUTO_DEVICE_NR`. -/
  | mbinfoReceived (i : ℕ) (draw : ℕ → ℕ)
  | close (i : ℕ)
  /-- `ioc_release_connection`. -/
  | release (i : ℕ)

def setConnection (root : DeviceNumberRoot sizes) (i : ℕ)
    (f : DeviceConnection sizes → DeviceConnection sizes) : DeviceNumberRoot sizes :=
  match root.cons[i]? with
  | some (some con) => { root with cons := root.cons.set i (some (f con)) }
  | _ => root

def mbinfoReceived (root : DeviceNumberRoot sizes) (i : ℕ) (draw : ℕ → ℕ) :
    DeviceNumberRoot sizes :=
  match root.cons[i]? with
  | some (some con) =>
      if con.autoDeviceNr ≠ 0 then root
      else
        let got := root.getAutomaticDeviceNr con.uniqueIdBin draw
        { got.2 with
          cons := root.cons.set i (some { con with autoDeviceNr := got.1 })
          given := (got.1, decide (con.uniqueIdBin ≠ noUniqueId sizes)) :: root.given }
  | _ => root

def step (root : DeviceNumberRoot sizes) : Action sizes → DeviceNumberRoot sizes
  | .newConnection => { root with cons := root.cons ++ [some ⟨noUniqueId sizes, 0, false⟩] }
  | .authenticate i uniqueIdBin =>
      root.setConnection i fun con => { con with uniqueIdBin := uniqueIdBin }
  | .connect i => root.setConnection i fun con => { con with connected := true }
  | .mbinfoReceived i draw => root.mbinfoReceived i draw
  | .close i => root.setConnection i fun con => { con with connected := false }
  | .release i => { root with cons := root.cons.set i none }

/-- A root without connections, with the table which earlier runs have left. -/
def Initial (root : DeviceNumberRoot sizes) : Prop :=
  root.autoDeviceNr = autoDeviceNrStart + 1 ∧
    (∃ calls : List (UniqueId sizes), (∀ id ∈ calls, id ≠ noUniqueId sizes) ∧
      root.reservations = calls.foldl Reservations.call (initialReservations sizes)) ∧
    root.cons = [] ∧ root.given = []

/-! ## Collisions -/

/-- Two connections can have the number of a connection at once only if they have the same
unique identifier, and the row of this number is theirs. -/
def Fits (root : DeviceNumberRoot sizes) (i : ℕ) (con : DeviceConnection sizes) : Prop :=
  con.connected = true → con.autoDeviceNr ≠ 0 →
    (∀ (j : ℕ) (other : DeviceConnection sizes), j ≠ i → root.cons[j]? = some (some other) →
      other.connected = true → other.autoDeviceNr = con.autoDeviceNr →
        other.uniqueIdBin = con.uniqueIdBin ∧ con.uniqueIdBin ≠ noUniqueId sizes) ∧
    ∀ row ∈ root.reservations.saved.rows, row.deviceNr = con.autoDeviceNr →
      con.uniqueIdBin = row.uniqueIdBin

/-- A connection object keeps its number only if it fits, the number to reserve next is not
the number of another device, and the first number which is drawn and not used is not one
of those to reserve. -/
def Allowed (root : DeviceNumberRoot sizes) : Action sizes → Prop
  | .authenticate i uniqueIdBin => ∀ con, root.cons[i]? = some (some con) →
      root.Fits i { con with uniqueIdBin := uniqueIdBin }
  | .connect i => ∀ con, root.cons[i]? = some (some con) →
      root.Fits i { con with connected := true }
  | .mbinfoReceived i draw => ∀ con, root.cons[i]? = some (some con) → con.autoDeviceNr = 0 →
      if con.uniqueIdBin = noUniqueId sizes then
        ∃ k < 100000, (∀ j < 100000, k < j → numberUsed root.cons (draw j) = true) ∧
          numberUsed root.cons (draw k) = false ∧ autoDeviceNrStart - 2 < draw k
      else
        (∀ row ∈ root.reservations.saved.rows, row.uniqueIdBin ≠ con.uniqueIdBin) →
          ∀ (j : ℕ) (other : DeviceConnection sizes), j ≠ i →
            root.cons[j]? = some (some other) → other.connected = true →
            other.autoDeviceNr = root.reservations.saved.next →
              other.uniqueIdBin = con.uniqueIdBin
  | _ => True

/-- No two connected connections with different or no unique identifiers have the same
number, all numbers are greater than `IOC_AUTO_DEVICE_NR`, and those without a unique
identifier are not in the range of the others. -/
structure NoCollision (root : DeviceNumberRoot sizes) : Prop where
  different : ∀ (i j : ℕ) (con other : DeviceConnection sizes), i ≠ j →
    root.cons[i]? = some (some con) → root.cons[j]? = some (some other) →
      con.connected = true → other.connected = true →
      con.autoDeviceNr ≠ 0 → con.autoDeviceNr = other.autoDeviceNr →
        con.uniqueIdBin = other.uniqueIdBin ∧ con.uniqueIdBin ≠ noUniqueId sizes
  greater : ∀ nr ∈ root.given, autoDeviceNumber < nr.1
  unreserved : ∀ nr ∈ root.given, nr.2 = false →
    nr.1 < reservedAutoDeviceNrStart ∨ autoDeviceNrStart - 2 < nr.1

structure Invariant (root : DeviceNumberRoot sizes) : Prop where
  valid : root.reservations.Valid
  fits : ∀ i con, root.cons[i]? = some (some con) → root.Fits i con
  greater : ∀ nr ∈ root.given, autoDeviceNumber < nr.1
  unreserved : ∀ nr ∈ root.given, nr.2 = false →
    nr.1 < reservedAutoDeviceNrStart ∨ autoDeviceNrStart - 2 < nr.1

variable {root : DeviceNumberRoot sizes}

theorem Invariant.noCollision (h : root.Invariant) : root.NoCollision where
  different i j con other hne hcon hother hconnected hconnected' hnumber hsame := by
    obtain ⟨hid, hnone⟩ := (h.fits i con hcon hconnected hnumber).1 j other hne.symm hother
      hconnected' hsame.symm
    exact ⟨hid.symm, hnone⟩
  greater := h.greater
  unreserved := h.unreserved

theorem fits_of_number_eq_zero {i : ℕ} {con : DeviceConnection sizes}
    (hnumber : con.autoDeviceNr = 0) : root.Fits i con :=
  fun _ hnonzero => absurd hnumber hnonzero

theorem fits_set (hfits : ∀ i con, root.cons[i]? = some (some con) → root.Fits i con) {i : ℕ}
    {con : DeviceConnection sizes} (hcon : root.Fits i con) :
    ∀ j other, (root.cons.set i (some con))[j]? = some (some other) →
      Fits { root with cons := root.cons.set i (some con) } j other := by
  have hback : ∀ j other, (root.cons.set i (some con))[j]? = some (some other) →
      (j = i ∧ other = con) ∨ (j ≠ i ∧ root.cons[j]? = some (some other)) := by
    intro j other hget
    by_cases hj : j = i
    · have hlt : i < root.cons.length := by
        have hbound := (List.getElem?_eq_some_iff.mp hget).1
        rw [List.length_set] at hbound
        exact hj ▸ hbound
      rw [hj, List.getElem?_set_self hlt] at hget
      exact Or.inl ⟨hj, (Option.some.inj (Option.some.inj hget)).symm⟩
    · rw [List.getElem?_set_ne (Ne.symm hj)] at hget
      exact Or.inr ⟨hj, hget⟩
  intro j other hget hconnected hnumber
  rcases hback j other hget with ⟨rfl, rfl⟩ | ⟨hj, hold⟩
  · refine ⟨fun k third hk hthird hconnected' hsame => ?_, (hcon hconnected hnumber).2⟩
    rcases hback k third hthird with ⟨hki, -⟩ | ⟨-, hold⟩
    · exact absurd hki hk
    · exact (hcon hconnected hnumber).1 k third hk hold hconnected' hsame
  · have hself := hfits j other hold hconnected hnumber
    refine ⟨fun k third hk hthird hconnected' hsame => ?_, hself.2⟩
    rcases hback k third hthird with ⟨rfl, rfl⟩ | ⟨-, hold'⟩
    · obtain ⟨hid, hnone⟩ := (hcon hconnected' (hsame ▸ hnumber)).1 j other hj hold hconnected
        hsame.symm
      exact ⟨hid.symm, hid ▸ hnone⟩
    · exact hself.1 k third hk hold' hconnected' hsame

theorem Invariant.setConnection (h : root.Invariant) {i : ℕ}
    {f : DeviceConnection sizes → DeviceConnection sizes}
    (hf : ∀ con, root.cons[i]? = some (some con) → root.Fits i (f con)) :
    (root.setConnection i f).Invariant := by
  unfold DeviceNumberRoot.setConnection
  split
  next con hcon => exact ⟨h.valid, fits_set h.fits (hf con hcon), h.greater, h.unreserved⟩
  next => exact h

/-! ## A number is given -/

theorem numberUsed_eq_false {cons : List (Option (DeviceConnection sizes))} {id : ℕ}
    (h : numberUsed cons id = false) {i : ℕ} {con : DeviceConnection sizes}
    (hcon : cons[i]? = some (some con)) : id ≠ con.autoDeviceNr := by
  unfold numberUsed at h
  have hslot := List.any_eq_false.mp h (some con) (List.mem_of_getElem? hcon)
  intro heq
  exact hslot (decide_eq_true heq)

theorem drawNumber_eq {cons : List (Option (DeviceConnection sizes))} {draw : ℕ → ℕ} {k n : ℕ}
    (hk : k < n) (hused : ∀ j < n, k < j → numberUsed cons (draw j) = true)
    (hfree : numberUsed cons (draw k) = false) : drawNumber cons draw n = draw k := by
  induction n with
  | zero => exact absurd hk (Nat.not_lt_zero k)
  | succ n ih =>
      rw [drawNumber]
      by_cases hlast : k = n
      · rw [← hlast, hfree, if_neg Bool.false_ne_true]
      · rw [hused n (Nat.lt_succ_self n) (by omega), if_pos rfl]
        exact ih (by omega) fun j hj hlt => hused j (Nat.lt_succ_of_lt hj) hlt

/-- The numbers without a unique identifier are not those of rows. -/
theorem Invariant.fits_unreserved (h : root.Invariant) {i : ℕ} {con : DeviceConnection sizes}
    {nr : ℕ} (hfree : numberUsed root.cons nr = false) (hnr : autoDeviceNrStart - 2 < nr) :
    root.Fits i { con with autoDeviceNr := nr } := by
  intro _ hne
  refine ⟨fun j other _ hother _ hsame => ?_, fun row hrow hsame => ?_⟩
  · exact absurd hsame.symm (numberUsed_eq_false hfree hother)
  · have hbounds := h.valid.mem_bounds hrow (hsame ▸ hne)
    rw [hsame] at hbounds
    exact absurd hbounds.2 (Nat.not_le.mpr hnr)

theorem Invariant.fits_row (h : root.Invariant) {i : ℕ} {con : DeviceConnection sizes}
    {row : AutoNrRow sizes} (hrow : row ∈ root.reservations.saved.rows)
    (hid : row.uniqueIdBin = con.uniqueIdBin) (hnone : con.uniqueIdBin ≠ noUniqueId sizes) :
    root.Fits i { con with autoDeviceNr := row.deviceNr } := by
  intro _ hne
  refine ⟨fun j other _ hother hconnected hsame => ?_, fun row' hrow' hsame => ?_⟩
  · have hrowOther := (h.fits j other hother hconnected (hsame ▸ hne)).2 row hrow hsame.symm
    exact ⟨hrowOther.trans hid, hnone⟩
  · rw [h.valid.row_eq_of_deviceNr hrow' hrow (hsame ▸ hne) hsame]
    exact hid.symm

/-- The table after a reservation: its old rows, and the new one. -/
theorem Invariant.reserve (h : root.Invariant) {id : UniqueId sizes}
    (hid : id ≠ noUniqueId sizes)
    (hnew : ∀ row ∈ root.reservations.saved.rows, row.uniqueIdBin ≠ id)
    (hfree : ∀ (j : ℕ) (other : DeviceConnection sizes), root.cons[j]? = some (some other) →
      other.connected = true → other.autoDeviceNr = root.reservations.saved.next →
      other.uniqueIdBin = id) :
    Invariant { root with reservations := root.reservations.reserved id } := by
  have hvalid := h.valid.reserved hid hnew
  refine ⟨hvalid, fun i con hcon hconnected hne => ?_, h.greater, h.unreserved⟩
  refine ⟨(h.fits i con hcon hconnected hne).1, fun row hrow hsame => ?_⟩
  obtain ⟨j, hj, hget⟩ := List.getElem_of_mem hrow
  have hget' : (root.reservations.reserved id).saved.rows[j]? = some row := by
    rw [List.getElem?_eq_getElem hj, hget]
  rcases h.valid.reserved_row hget' with ⟨-, rfl⟩ | ⟨-, hold⟩
  · exact hfree i con hcon hconnected (hsame.symm.trans h.valid.next_eq.symm)
  · exact (h.fits i con hcon hconnected hne).2 row (List.mem_of_getElem? hold) hsame

theorem Invariant.give (h : root.Invariant) {i nr : ℕ} {con : DeviceConnection sizes}
    {hasId : Bool} (hfits : root.Fits i { con with autoDeviceNr := nr })
    (hgreater : autoDeviceNumber < nr)
    (hunreserved : hasId = false → nr < reservedAutoDeviceNrStart ∨ autoDeviceNrStart - 2 < nr)
    (counter : ℕ) :
    Invariant { root with
      autoDeviceNr := counter
      cons := root.cons.set i (some { con with autoDeviceNr := nr })
      given := (nr, hasId) :: root.given } where
  valid := h.valid
  fits := fits_set h.fits hfits
  greater given hmem := by
    rcases List.mem_cons.mp hmem with rfl | hold
    · exact hgreater
    · exact h.greater given hold
  unreserved given hmem := by
    rcases List.mem_cons.mp hmem with rfl | hold
    · exact hunreserved
    · exact h.unreserved given hold

theorem Invariant.mbinfoReceived (h : root.Invariant) {i : ℕ} {draw : ℕ → ℕ}
    (hallowed : root.Allowed (.mbinfoReceived i draw)) :
    (root.mbinfoReceived i draw).Invariant := by
  have hstart : autoDeviceNrStart = 40001 := rfl
  have hreservedStart : reservedAutoDeviceNrStart = 9001 := rfl
  have hauto : autoDeviceNumber = 9000 := rfl
  unfold DeviceNumberRoot.mbinfoReceived
  split
  next con hcon =>
    split_ifs with hnumber
    · exact h
    · have hcondition := hallowed con hcon (not_not.mp hnumber)
      unfold getAutomaticDeviceNr
      by_cases hnone : con.uniqueIdBin = noUniqueId sizes
      · rw [if_pos hnone] at hcondition
        obtain ⟨k, hk, hused, hfree, hrange⟩ := hcondition
        rw [if_neg (not_not.mpr hnone), drawNumber_eq hk hused hfree]
        exact h.give (h.fits_unreserved hfree hrange) (by omega) (fun _ => Or.inr hrange) _
      · rw [if_neg hnone] at hcondition
        rw [if_pos hnone, decide_eq_true hnone]
        by_cases hold : ∃ row ∈ root.reservations.saved.rows, row.uniqueIdBin = con.uniqueIdBin
        · obtain ⟨row, hrow, hid⟩ := hold
          have hfirst : ∀ other ∈ root.reservations.saved.rows,
              other.uniqueIdBin = con.uniqueIdBin → other = row := by
            rw [← hid]
            exact h.valid.row_unique hrow (hid ▸ hnone)
          have hbounds := h.valid.mem_bounds hrow (h.valid.deviceNr_ne_zero hrow (hid ▸ hnone))
          rw [Reservations.call_of_mem hrow hid hfirst,
            Reservations.getReservedAutonr_of_mem hrow hid hfirst]
          exact h.give (h.fits_row hrow hid hnone) (by omega) Bool.noConfusion _
        · have hnew : ∀ row ∈ root.reservations.saved.rows,
              row.uniqueIdBin ≠ con.uniqueIdBin := fun row hrow hid => hold ⟨row, hrow, hid⟩
          have hfree : ∀ (j : ℕ) (other : DeviceConnection sizes),
              root.cons[j]? = some (some other) → other.connected = true →
              other.autoDeviceNr = root.reservations.saved.next →
              other.uniqueIdBin = con.uniqueIdBin := by
            intro j other hother hconnected hsame
            by_cases hj : j = i
            · obtain rfl := Option.some.inj (Option.some.inj (hcon.symm.trans (hj ▸ hother)))
              rfl
            · exact hcondition hnew j other hj hother hconnected hsame
          have hreserved := h.reserve hnone hnew hfree
          have hrow := h.valid.mem_reserved con.uniqueIdBin
          have hbounds := hreserved.valid.mem_bounds hrow
            (hreserved.valid.deviceNr_ne_zero hrow hnone)
          rw [h.valid.call_of_not_mem hnew, h.valid.getReservedAutonr_of_not_mem hnew]
          exact hreserved.give (hreserved.fits_row hrow rfl hnone) (by omega)
            Bool.noConfusion _
  next => exact h

/-! ## Runs -/

theorem Invariant.newConnection (h : root.Invariant) : (root.step .newConnection).Invariant := by
  have hback : ∀ (j : ℕ) (other : DeviceConnection sizes),
      (root.step .newConnection).cons[j]? = some (some other) →
      root.cons[j]? = some (some other) ∨ other.connected = false := by
    intro j other hget
    have hget' : (root.cons ++ [some ⟨noUniqueId sizes, 0, false⟩])[j]? =
        some (some other) := hget
    by_cases hj : j < root.cons.length
    · rw [List.getElem?_append_left hj] at hget'
      exact Or.inl hget'
    · rw [List.getElem?_append_right (Nat.le_of_not_lt hj)] at hget'
      have hmem := List.mem_singleton.mp (List.mem_of_getElem? hget')
      exact Or.inr (by rw [Option.some.inj hmem])
  refine ⟨h.valid, fun i con hcon hconnected hne => ?_, h.greater, h.unreserved⟩
  rcases hback i con hcon with hold | hnew
  · refine ⟨fun j other hj hother hconnected' hsame => ?_,
      (h.fits i con hold hconnected hne).2⟩
    rcases hback j other hother with hold' | hnew'
    · exact (h.fits i con hold hconnected hne).1 j other hj hold' hconnected' hsame
    · rw [hnew'] at hconnected'
      cases hconnected'
  · rw [hnew] at hconnected
    cases hconnected

theorem Invariant.release (h : root.Invariant) (i : ℕ) :
    (root.step (.release i)).Invariant := by
  have hback : ∀ (j : ℕ) (other : DeviceConnection sizes),
      (root.step (.release i)).cons[j]? = some (some other) →
      root.cons[j]? = some (some other) := by
    intro j other hget
    have hget' : (root.cons.set i none)[j]? = some (some other) := hget
    by_cases hj : j = i
    · have hlt : i < root.cons.length := by
        have hbound := (List.getElem?_eq_some_iff.mp hget').1
        rw [List.length_set] at hbound
        exact hj ▸ hbound
      rw [hj, List.getElem?_set_self hlt] at hget'
      cases hget'
    · rw [List.getElem?_set_ne (Ne.symm hj)] at hget'
      exact hget'
  refine ⟨h.valid, fun j con hcon hconnected hne => ?_, h.greater, h.unreserved⟩
  have hfits := h.fits j con (hback j con hcon) hconnected hne
  exact ⟨fun k other hk hother => hfits.1 k other hk (hback k other hother), hfits.2⟩

theorem Invariant.step (h : root.Invariant) {action : Action sizes}
    (hallowed : root.Allowed action) : (root.step action).Invariant := by
  cases action with
  | newConnection => exact h.newConnection
  | authenticate i uniqueIdBin => exact h.setConnection hallowed
  | connect i => exact h.setConnection hallowed
  | mbinfoReceived i draw => exact h.mbinfoReceived hallowed
  | close i => exact h.setConnection fun con _ hconnected => by cases hconnected
  | release i => exact h.release i

def Next (root root' : DeviceNumberRoot sizes) : Prop :=
  ∃ action, root.Allowed action ∧ root' = root.step action

/-- In every run of allowed actions no two connections collide. -/
theorem noCollision_of_reachable
    (h : TransitionSystem.Reachable Initial Next root) : root.NoCollision := by
  refine (h.invariant Invariant ?_ ?_).noCollision
  · rintro root ⟨-, ⟨calls, hcalls, htable⟩, hcons, hgiven⟩
    refine ⟨?_, fun i con hcon => ?_, fun nr hnr => ?_, fun nr hnr => ?_⟩
    · rw [htable]
      exact Reservations.initial_valid.calls hcalls
    · rw [hcons] at hcon
      cases hcon
    · rw [hgiven] at hnr
      cases hnr
    · rw [hgiven] at hnr
      cases hnr
  · rintro root _ hinvariant ⟨action, hallowed, rfl⟩
    exact hinvariant.step hallowed

end DeviceNumberRoot

open DeviceNumberRoot

def serverRoot : DeviceNumberRoot serverSizes where
  autoDeviceNr := autoDeviceNrStart + 1
  reservations := initialReservations serverSizes
  cons := []
  given := []

theorem serverRoot_initial : Initial serverRoot :=
  ⟨rfl, ⟨[], fun _ hmem => absurd hmem List.not_mem_nil, rfl⟩, rfl, rfl⟩

/-- A device without unique identifier connects, for which 9001 is drawn, and then one with
a unique identifier. -/
def collidingActions : List (Action serverSizes) :=
  [.newConnection, .authenticate 0 (noUniqueId serverSizes), .connect 0,
    .mbinfoReceived 0 (fun _ => 9001),
    .newConnection, .authenticate 1 (deviceId 1), .connect 1,
    .mbinfoReceived 1 (fun _ => 9001)]

/-- The number which is given without a unique identifier is then reserved for the other. -/
theorem device_numbers_collide :
    Initial serverRoot ∧
      (collidingActions.foldl step serverRoot).cons =
        [some ⟨noUniqueId serverSizes, 9001, true⟩, some ⟨deviceId 1, 9001, true⟩] ∧
      (collidingActions.foldl step serverRoot).given = [(9001, true), (9001, false)] ∧
      ¬(collidingActions.foldl step serverRoot).NoCollision := by
  have hcons : (collidingActions.foldl step serverRoot).cons =
      [some ⟨noUniqueId serverSizes, 9001, true⟩, some ⟨deviceId 1, 9001, true⟩] := by
    decide +kernel
  refine ⟨serverRoot_initial, hcons, by decide +kernel, fun hno => ?_⟩
  have hsame := hno.different 0 1 ⟨noUniqueId serverSizes, 9001, true⟩
    ⟨deviceId 1, 9001, true⟩ (by decide) (by rw [hcons]; rfl) (by rw [hcons]; rfl) rfl rfl
    (by decide) rfl
  exact hsame.2 rfl

/-- A device without unique identifier, for which 50000 is drawn, then one with an identifier,
and another one without, for which 50000 and 60000 are drawn. -/
def connectingDevices : List (Action serverSizes) :=
  [.newConnection, .connect 0, .mbinfoReceived 0 (fun _ => 50000),
    .newConnection, .authenticate 1 (deviceId 1), .connect 1, .mbinfoReceived 1 (fun _ => 50000),
    .newConnection, .connect 2,
    .mbinfoReceived 2 (fun k => if k = 99999 then 50000 else 60000)]

/-- The root after the first `n` actions. -/
def connectingRoot (n : ℕ) : DeviceNumberRoot serverSizes :=
  (connectingDevices.take n).foldl step serverRoot

theorem noCollision_connectingDevices :
    (connectingDevices.foldl step serverRoot).cons =
        [some ⟨noUniqueId serverSizes, 50000, true⟩, some ⟨deviceId 1, 9001, true⟩,
          some ⟨noUniqueId serverSizes, 60000, true⟩] ∧
      (connectingDevices.foldl step serverRoot).NoCollision := by
  have hslot : ∀ (root : DeviceNumberRoot serverSizes) (i : ℕ)
      (con : DeviceConnection serverSizes), root.cons[i]? = some (some con) →
      ∀ con', root.cons[i]? = some (some con') → con' = con :=
    fun root i con hcon con' hcon' =>
      Option.some.inj (Option.some.inj (hcon'.symm.trans hcon))
  have hsecond : (connectingRoot 6).cons =
      [some ⟨noUniqueId serverSizes, 50000, true⟩, some ⟨deviceId 1, 0, true⟩] := by
    decide +kernel
  have hstart : TransitionSystem.Reachable Initial Next (connectingRoot 0) :=
    .start serverRoot_initial
  have h₁ : TransitionSystem.Reachable Initial Next (connectingRoot 1) :=
    hstart.next ⟨.newConnection, trivial, rfl⟩
  have h₂ : TransitionSystem.Reachable Initial Next (connectingRoot 2) :=
    h₁.next ⟨.connect 0, fun con hcon => fits_of_number_eq_zero (by
      rw [hslot _ 0 ⟨noUniqueId serverSizes, 0, false⟩ (by decide +kernel) con hcon]), rfl⟩
  have h₃ : TransitionSystem.Reachable Initial Next (connectingRoot 3) :=
    h₂.next ⟨.mbinfoReceived 0 (fun _ => 50000), fun con hcon _ => by
      rw [hslot _ 0 ⟨noUniqueId serverSizes, 0, true⟩ (by decide +kernel) con hcon, if_pos rfl]
      exact ⟨99999, by decide, fun j hj hlt => absurd hj (by omega), by decide +kernel,
        by decide⟩, rfl⟩
  have h₄ : TransitionSystem.Reachable Initial Next (connectingRoot 4) :=
    h₃.next ⟨.newConnection, trivial, rfl⟩
  have h₅ : TransitionSystem.Reachable Initial Next (connectingRoot 5) :=
    h₄.next ⟨.authenticate 1 (deviceId 1), fun con hcon => fits_of_number_eq_zero (by
      rw [hslot _ 1 ⟨noUniqueId serverSizes, 0, false⟩ (by decide +kernel) con hcon]), rfl⟩
  have h₆ : TransitionSystem.Reachable Initial Next (connectingRoot 6) :=
    h₅.next ⟨.connect 1, fun con hcon => fits_of_number_eq_zero (by
      rw [hslot _ 1 ⟨deviceId 1, 0, false⟩ (by decide +kernel) con hcon]), rfl⟩
  have h₇ : TransitionSystem.Reachable Initial Next (connectingRoot 7) :=
    h₆.next ⟨.mbinfoReceived 1 (fun _ => 50000), fun con hcon _ => by
      rw [hslot _ 1 ⟨deviceId 1, 0, true⟩ (by decide +kernel) con hcon, if_neg (by decide)]
      intro _ j other hj hother _ hnext
      rw [hsecond] at hother
      match j, hother with
      | 0, hother =>
          obtain rfl := Option.some.inj (Option.some.inj hother)
          exact absurd hnext (by decide +kernel)
      | 1, _ => exact absurd rfl hj, rfl⟩
  have h₈ : TransitionSystem.Reachable Initial Next (connectingRoot 8) :=
    h₇.next ⟨.newConnection, trivial, rfl⟩
  have h₉ : TransitionSystem.Reachable Initial Next (connectingRoot 9) :=
    h₈.next ⟨.connect 2, fun con hcon => fits_of_number_eq_zero (by
      rw [hslot _ 2 ⟨noUniqueId serverSizes, 0, false⟩ (by decide +kernel) con hcon]), rfl⟩
  have h₁₀ : TransitionSystem.Reachable Initial Next (connectingRoot 10) :=
    h₉.next ⟨.mbinfoReceived 2 (fun k => if k = 99999 then 50000 else 60000),
      fun con hcon _ => by
        rw [hslot _ 2 ⟨noUniqueId serverSizes, 0, true⟩ (by decide +kernel) con hcon,
          if_pos rfl]
        refine ⟨99998, by decide, fun j hj hlt => ?_, by decide +kernel, by decide⟩
        obtain rfl : j = 99999 := by omega
        decide +kernel, rfl⟩
  exact ⟨by decide +kernel, noCollision_of_reachable h₁₀⟩

end Iocom
