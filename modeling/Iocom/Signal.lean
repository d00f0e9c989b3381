import Mathlib.Data.Int.Basic

/-!
# Signals

A signal is a state byte, followed by a value, an array or a string, at an
address of a memory block (`ioc_signal.h`, `ioc_signal_addr.c`).
-/

namespace Iocom

/-- `osalTypeId`. -/
inductive TypeId where
  | undefined
  | boolean
  | char
  | uchar
  | short
  | ushort
  | int
  | uint
  | int64
  | long
  | float
  | double
  | dec01
  | dec001
  | str
  | object
  | pointer
  deriving DecidableEq

/-- `osal_type_size`. -/
def typeSize : TypeId → ℕ
  | .undefined | .object | .pointer => 0
  | .boolean | .char | .uchar | .str => 1
  | .short | .ushort | .dec01 | .dec001 => 2
  | .int | .uint | .float => 4
  | .int64 | .long | .double => 8

/-- `iocSignal`.  The handle is that of the memory block which the signal is
used with. -/
structure Signal where
  addr : ℤ
  n : ℕ
  typeId : TypeId
  deriving DecidableEq

/-- `ioc_nro_signal_bytes`. -/
def Signal.nroSignalBytes (signal : Signal) : ℕ :=
  let n := if signal.n < 1 then 1 else signal.n
  match signal.typeId with
  | .str => n + 1
  | .boolean => if 1 < n then (n + 7) / 8 + 1 else n
  | typeId => n * typeSize typeId + 1

end Iocom
