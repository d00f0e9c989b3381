import Iocom.SystemFrames

/-!
# Automatic device numbers

The reservation table of `ioc_auto_device_nr.c`, which remembers the numbers of the last
devices with a unique identifier.  The table is the one which has been loaded; saving and
loading it again does not change it.
-/

namespace Iocom

/-- `IOC_AUTO_DEVICE_NR_START`. -/
def autoDeviceNrStart : ℕ := autoDeviceNumber + 31001

/-- `IOC_RESERVED_AUTO_DEVICE_NR_START`. -/
def reservedAutoDeviceNrStart : ℕ := autoDeviceNumber + 1

/-- How many numbers can be reserved, up to `IOC_AUTO_DEVICE_NR_START - 2`. -/
def nroReservedNumbers : ℕ := autoDeviceNrStart - 1 - reservedAutoDeviceNrStart

/-- `OSAL_UNIQUE_ID_BIN_SZ`, and `IOC_NRO_SAVED_DEVICE_NRS`: there are not more rows than
numbers to reserve. -/
structure AutoNrSizes where
  uniqueIdBin : ℕ
  nroSavedDeviceNrs : ℕ
  nroSavedDeviceNrs_pos : 0 < nroSavedDeviceNrs
  nroSavedDeviceNrs_le : nroSavedDeviceNrs ≤ nroReservedNumbers

abbrev UniqueId (sizes : AutoNrSizes) : Type := Vector UInt8 sizes.uniqueIdBin

def noUniqueId (sizes : AutoNrSizes) : UniqueId sizes := Vector.replicate sizes.uniqueIdBin 0

structure AutoNrRow (sizes : AutoNrSizes) where
  deviceNr : ℕ
  uniqueIdBin : UniqueId sizes
  deriving DecidableEq

/-- `iocSavedAutoNrData`. -/
structure SavedAutoNrData (sizes : AutoNrSizes) where
  reserveAutoDeviceNr : ℕ
  rows : List (AutoNrRow sizes)
  deriving DecidableEq

variable {sizes : AutoNrSizes}

/-- Selecting a row: the number from which on the rows are of the round before, the next
row and its index, and the row which has been found so far with its number. -/
def selectRow (next : ℕ) : ℕ → List (AutoNrRow sizes) → ℕ × ℕ → ℕ
  | _, [], best => best.1
  | i, row :: rows, best =>
      let best :=
        if next ≤ row.deviceNr then
          if row.deviceNr < best.2 then (i, row.deviceNr) else best
        else best
      let best :=
        if (row.deviceNr + autoDeviceNrStart) % 0x100000000 < best.2 then
          (i, (row.deviceNr + autoDeviceNrStart) % 0x100000000)
        else best
      selectRow next (i + 1) rows best

/-- `smallest_i`. -/
def smallestRow (next : ℕ) : List (AutoNrRow sizes) → ℕ
  | [] => 0
  | row :: rows =>
      let id :=
        if row.deviceNr < next then (row.deviceNr + autoDeviceNrStart) % 0x100000000
        else row.deviceNr
      selectRow next 0 (row :: rows) (0, id)

def SavedAutoNrData.next (d : SavedAutoNrData sizes) : ℕ :=
  if d.reserveAutoDeviceNr < reservedAutoDeviceNrStart ∨
      autoDeviceNrStart - 2 < d.reserveAutoDeviceNr then
    reservedAutoDeviceNrStart
  else d.reserveAutoDeviceNr

/-- `ioc_get_reserved_autonr`: the number, and the table afterwards. -/
def getReservedAutonr (id : UniqueId sizes) (d : SavedAutoNrData sizes) :
    ℕ × SavedAutoNrData sizes :=
  match d.rows.find? fun row => decide (id = row.uniqueIdBin) with
  | some row => (row.deviceNr, d)
  | none =>
      (d.next,
        { reserveAutoDeviceNr := (d.next + 1) % 0x100000000
          rows := d.rows.set (smallestRow d.next d.rows) ⟨d.next, id⟩ })

def zeroAutoNrData (sizes : AutoNrSizes) : SavedAutoNrData sizes where
  reserveAutoDeviceNr := 0
  rows := List.replicate sizes.nroSavedDeviceNrs ⟨0, noUniqueId sizes⟩

/-! ## Reservations -/

/-- A table, how many reservations have been made in it, and which one of them each row
holds, 0 for none. -/
structure Reservations (sizes : AutoNrSizes) where
  saved : SavedAutoNrData sizes
  count : ℕ
  reservedAt : ℕ → ℕ

def initialReservations (sizes : AutoNrSizes) : Reservations sizes where
  saved := zeroAutoNrData sizes
  count := 0
  reservedAt _ := 0

/-- A call which changes the table is a reservation, and each row which it changes holds
this reservation then. -/
def Reservations.call (s : Reservations sizes) (id : UniqueId sizes) : Reservations sizes :=
  let d := (getReservedAutonr id s.saved).2
  if d = s.saved then s
  else
    { saved := d
      count := s.count + 1
      reservedAt := fun i =>
        if d.rows[i]? = s.saved.rows[i]? then s.reservedAt i else s.count + 1 }

end Iocom
