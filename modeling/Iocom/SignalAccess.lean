import Iocom.Root
import Iocom.Signal

/-!
# Writing signals

`ioc_move`, `ioc_move_str` and `ioc_move_array` with the flag
`IOC_SIGNAL_WRITE`, and the variants of `ioc_write`.  Each of them works out
for itself which bytes it has changed.
-/

namespace Iocom

/-- Conversions of the operating system layer.  `converted` is the content of
an `iocTypeConvUnion` into which a value was converted; `booleanValue` and
`connected` are bits of the state byte. -/
structure SignalOsal where
  booleanValue : UInt8
  connected : UInt8
  converted : TypeId → ℤ → ℕ → UInt8
  intToStr : ℤ → List UInt8
  strToValue : TypeId → List UInt8 → ℤ

/-- `OSAL_STATE_BOOLEAN_VALUE` set or cleared in state bits. -/
def SignalOsal.setBooleanValue (osal : SignalOsal) (stateBits : UInt8) (value : Bool) :
    UInt8 :=
  if value then stateBits ||| osal.booleanValue
  else stateBits &&& ~~~osal.booleanValue

/-- `iocValue`; the value as its 64 bits. -/
structure SignalValue where
  value : ℤ
  stateBits : UInt8

def LinkedBlock.storeBytes (block : LinkedBlock) (addr : ℤ) (bytes : List UInt8) :
    LinkedBlock :=
  { block with
    mblk.buf := Segment.combineAt (fun _ new => new) block.mblk.buf addr bytes }

/-- `ioc_mblk_invalidate`. -/
def LinkedBlock.invalidate (block : LinkedBlock) (startAddr endAddr : ℤ) :
    LinkedBlock :=
  { block with
    sbufs := block.sbufs.map fun sbuf => sbuf.invalidate block.mblk startAddr endAddr }

/-- What `ioc_write` stores with the flag `IOC_MBLK_STRING`. -/
def stringBytes (str : List UInt8) (n : ℕ) : List UInt8 :=
  (str ++ List.replicate n 0).take n

/-- `ioc_write` with the flag `IOC_MBLK_STRING`. -/
def LinkedBlock.writeString (block : LinkedBlock) (addr : ℤ) (str : List UInt8) (n : ℕ) :
    LinkedBlock :=
  block.write addr (stringBytes str n)

/-- `ioc_write` with the flag `IOC_CLEAR_MBLK_RANGE`. -/
def LinkedBlock.clear (block : LinkedBlock) (addr : ℤ) (n : ℕ) : LinkedBlock :=
  block.write addr (List.replicate n 0)

variable (osal : SignalOsal)

/-- One signal of `ioc_move`, unless it is a string. -/
def LinkedBlock.setSignal
    (block : LinkedBlock) (signal : Signal) (v : SignalValue) : LinkedBlock × UInt8 :=
  let typeSz := if signal.typeId = .boolean then 0 else typeSize signal.typeId
  if signal.addr < 0 ∨ block.mblk.nbytes ≤ signal.addr + typeSz then
    (block, v.stateBits)
  else
    let sb := osal.setBooleanValue v.stateBits (decide (v.value ≠ 0))
    let bytes := (List.range typeSz).map (osal.converted signal.typeId v.value)
    ((block.storeBytes signal.addr (sb :: bytes)).invalidate signal.addr
      (signal.addr + typeSz), sb)

/-- `ioc_move_str`, for a signal which is a string; `str` is without the
terminating zero. -/
def LinkedBlock.setString
    (block : LinkedBlock) (signal : Signal) (str : List UInt8) (stateBits : UInt8) :
    LinkedBlock × UInt8 :=
  if signal.addr < 0 ∨ block.mblk.nbytes < signal.addr + signal.n + 1 then (block, 0)
  else
    let copied := (str ++ [0]).take signal.n
    ((block.storeBytes signal.addr (stateBits :: copied)).invalidate signal.addr
      (signal.addr + copied.length), stateBits)

/-- `ioc_move_str`. -/
def LinkedBlock.moveStr
    (block : LinkedBlock) (signal : Signal) (str : List UInt8) (stateBits : UInt8) :
    LinkedBlock × UInt8 :=
  if signal.typeId = .str then block.setString signal str stateBits
  else block.setSignal osal signal ⟨osal.strToValue signal.typeId str, stateBits⟩

/-- One signal of `ioc_move`. -/
def LinkedBlock.moveSignal
    (block : LinkedBlock) (signal : Signal) (v : SignalValue) : LinkedBlock × UInt8 :=
  if signal.typeId = .str then
    block.setString signal (osal.intToStr v.value) osal.connected
  else block.setSignal osal signal v

/-- `ioc_move`: the block, and the state bits which are returned. -/
def LinkedBlock.move (block : LinkedBlock) :
    List (Signal × SignalValue) → LinkedBlock × List UInt8
  | [] => (block, [])
  | (signal, v) :: signals =>
      let first := block.moveSignal osal signal v
      let rest := first.1.move signals
      (rest.1, first.2 :: rest.2)

/-- Eight `os_boolean` as bits, the first one lowest. -/
def packByte (bits : List UInt8) : UInt8 :=
  bits.foldr (fun b byte => byte * 2 + if b ≠ 0 then 1 else 0) 0

/-- `os_boolean` elements packed as bits. -/
def packBooleans (array : List UInt8) : List UInt8 :=
  (List.range ((array.length + 7) / 8)).map fun k =>
    packByte ((array.drop (8 * k)).take 8)

theorem packBooleans_length (array : List UInt8) :
    (packBooleans array).length = (array.length + 7) / 8 := by
  simp [packBooleans]

/-- `ioc_move_array`.  The array has `n` elements, with the state bits; it is
clipped to the elements which the signal has from the offset on. -/
def LinkedBlock.moveArray
    (block : LinkedBlock) (signal : Signal) (offset : ℕ) (array : List UInt8) (n : ℕ)
    (stateBits : UInt8) : LinkedBlock × UInt8 :=
  let typeSz := typeSize signal.typeId
  let nn := if signal.typeId = .boolean then (if n = 1 then 0 else (n + 7) / 8) else n
  if signal.addr < 0 ∨ block.mblk.nbytes ≤ signal.addr + (offset + nn) * typeSz then
    (block, 0)
  else
    let clipped : ℤ :=
      if signal.n < n + offset then (signal.n : ℤ) - offset else n
    if signal.typeId = .boolean then
      let sb := osal.setBooleanValue stateBits (decide (array.headD 0 ≠ 0))
      let packed := if 1 < clipped then packBooleans (array.take clipped.toNat) else []
      let count := if 1 < clipped then (clipped + 7) / 8 else 0
      ((block.storeBytes signal.addr (sb :: packed)).invalidate signal.addr
        (signal.addr + count), sb)
    else
      let stateChanged := block.mblk.buf signal.addr ≠ stateBits
      let start := signal.addr + offset * typeSz + 1
      let bytes := clipped * typeSz
      let stored :=
        (block.storeBytes signal.addr [stateBits]).storeBytes start
          (array.take bytes.toNat)
      if stateChanged then
        (stored.invalidate signal.addr (signal.addr + bytes + offset * typeSz), stateBits)
      else if bytes ≠ 0 then
        (stored.invalidate start (start + bytes - 1), stateBits)
      else (stored, stateBits)

end Iocom
