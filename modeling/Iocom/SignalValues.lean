import Iocom.ReadWrite
import Iocom.LighthouseText
import Iocom.Lib.LittleEndian

/-!
# Reading signals

`ioc_move`, `ioc_move_str` and `ioc_move_array` without `IOC_SIGNAL_WRITE`, and
what the conversions between values and bytes of a memory block are.  Strings,
integers and booleans are read; the floating point types are left to the
processor.
-/

namespace Iocom

/-! ## Values and bytes -/

def TypeId.isInteger : TypeId → Bool
  | .char | .uchar | .short | .ushort | .int | .uint | .int64 | .long => true
  | _ => false

def TypeId.isSigned (signedChar : Bool) : TypeId → Bool
  | .char => signedChar
  | .short | .int | .int64 | .long => true
  | _ => false

def TypeId.InRange (signedChar : Bool) (typeId : TypeId) (v : ℤ) : Prop :=
  if typeId = .boolean then v = 0 ∨ v = 1
  else if typeId.isSigned signedChar then
    -(256 ^ typeSize typeId / 2) ≤ v ∧ v < 256 ^ typeSize typeId / 2
  else 0 ≤ v ∧ v < 256 ^ typeSize typeId

/-- The processor and the operating system layer: the byte order, whether `os_char` is
signed, the bits of the state byte, none of which is `IOC_SIGNAL_NO_THREAD_SYNC`, and the
conversions. -/
structure SignalProcessor where
  smallEndian : Bool
  signedChar : Bool
  booleanValue : UInt8
  connected : UInt8
  intToStr : ℤ → List UInt8
  strToInt : List UInt8 → ℤ
  floating : TypeId → ℤ → ℕ → UInt8
  strToFloating : TypeId → List UInt8 → ℤ
  booleanValue_ne : booleanValue ≠ 0
  connected_booleanValue : connected &&& booleanValue = 0
  booleanValue_noThreadSync : booleanValue &&& 0x80 = 0
  connected_noThreadSync : connected &&& 0x80 = 0
  strToInt_intToStr : ∀ v, -9223372036854775808 ≤ v → v < 9223372036854775808 →
    strToInt (intToStr v) = v

variable (p : SignalProcessor)

/-- An `iocTypeConvUnion` after an assignment: the bytes of its member in the order of the
processor. -/
def SignalProcessor.tconv (typeId : TypeId) (v : ℤ) : List UInt8 :=
  if p.smallEndian then LittleEndian.ofInt (typeSize typeId) v
  else (LittleEndian.ofInt (typeSize typeId) v).reverse

/-- The value of the member of an `iocTypeConvUnion`. -/
def SignalProcessor.tconvValue (typeId : TypeId) (tconv : List UInt8) : ℤ :=
  LittleEndian.toInt (typeId.isSigned p.signedChar)
    (if p.smallEndian then tconv else tconv.reverse)

def SignalProcessor.osal : SignalOsal where
  booleanValue := p.booleanValue
  connected := p.connected
  converted typeId v k :=
    if typeId.isInteger then
      (byteOrderedCopy p.smallEndian (p.tconv typeId v) (typeSize typeId)
        (typeSize typeId)).getD k 0
    else p.floating typeId v k
  intToStr := p.intToStr
  strToValue typeId str :=
    if typeId = .float then p.strToFloating typeId str else osInt (p.strToInt str)

/-! ## The functions -/

/-- The state bits which are returned for those of the block: without a target buffer,
`OSAL_STATE_CONNECTED` is off. -/
def LinkedBlock.returnedStateBits
    (block : LinkedBlock) (stateBits : UInt8) (noTbufCheck : Bool) : UInt8 :=
  if block.tbufs.isEmpty && !noTbufCheck then stateBits &&& ~~~p.connected
  else stateBits

/-- One signal of `ioc_move` without `IOC_SIGNAL_WRITE`, unless it is a string or a
floating point number. -/
def LinkedBlock.getSignal
    (block : LinkedBlock) (signal : Signal) (noTbufCheck : Bool) : SignalValue :=
  let typeSz := if signal.typeId = .boolean then 0 else typeSize signal.typeId
  if signal.addr < 0 ∨ block.mblk.nbytes ≤ signal.addr + typeSz then ⟨0, 0⟩
  else
    let sb := block.returnedStateBits p (block.mblk.buf signal.addr) noTbufCheck
    if signal.typeId = .boolean then
      ⟨if sb &&& p.booleanValue ≠ 0 then 1 else 0, sb⟩
    else
      ⟨p.tconvValue signal.typeId
        (byteOrderedCopy p.smallEndian
          (Segment.segment block.mblk.buf (signal.addr + 1) typeSz) typeSz typeSz), sb⟩

/-- `ioc_move_str` with `IOC_SIGNAL_WRITE`, for a signal which is an integer or a boolean.
`ioc_set_ext` takes the state bits together with `IOC_SIGNAL_NO_THREAD_SYNC`. -/
def LinkedBlock.setText
    (block : LinkedBlock) (signal : Signal) (str : List UInt8) (stateBits : UInt8) :
    LinkedBlock × UInt8 :=
  block.setSignal p.osal signal ⟨p.osal.strToValue signal.typeId str, stateBits &&& 0x7F⟩

/-- `ioc_move_str` without `IOC_SIGNAL_WRITE`, for a signal which is an integer or a
boolean. -/
def LinkedBlock.getText
    (block : LinkedBlock) (signal : Signal) (noTbufCheck : Bool) : List UInt8 × UInt8 :=
  let v := block.getSignal p signal noTbufCheck
  (p.intToStr v.value, v.stateBits)

/-- `ioc_move_str` without `IOC_SIGNAL_WRITE`, for a signal which is a string; `str` is the
caller's buffer. -/
def LinkedBlock.getString
    (block : LinkedBlock) (signal : Signal) (str : List UInt8) (noTbufCheck : Bool) :
    List UInt8 × UInt8 :=
  let emptied := str.set 0 0
  if signal.addr < 0 ∨ block.mblk.nbytes < signal.addr + signal.n + 1 then (emptied, 0)
  else
    let len := min str.length signal.n
    (Segment.segment block.mblk.buf (signal.addr + 1) len ++ emptied.drop len,
      block.returnedStateBits p (block.mblk.buf signal.addr) noTbufCheck)

/-- `os_boolean` elements from bits. -/
def unpackBooleans (mem : Mem) (first : ℤ) (count : ℕ) : List UInt8 :=
  (List.range count).map fun i =>
    if (mem (first + (i / 8 : ℕ))).toNat.testBit (i % 8) then 1 else 0

/-- `ioc_move_array` without `IOC_SIGNAL_WRITE`; `array` is the caller's. -/
def LinkedBlock.getArray
    (block : LinkedBlock) (signal : Signal) (offset : ℕ) (array : List UInt8) (n : ℕ)
    (noTbufCheck : Bool) : List UInt8 × UInt8 :=
  let typeSz := typeSize signal.typeId
  let nn := if signal.typeId = .boolean then (if n = 1 then 0 else (n + 7) / 8) else n
  if signal.addr < 0 ∨ block.mblk.nbytes ≤ signal.addr + (offset + nn) * typeSz then
    (array, 0)
  else
    let clipped : ℤ :=
      if signal.n < n + offset then (signal.n : ℤ) - offset else n
    let sb := block.returnedStateBits p (block.mblk.buf signal.addr) noTbufCheck
    if signal.typeId = .boolean then
      if 1 < clipped then
        (unpackBooleans block.mblk.buf (signal.addr + 1) clipped.toNat ++
          array.drop clipped.toNat, sb)
      else
        -- the assignment in the condition leaves nothing else of the state bits
        let sb := sb &&& p.booleanValue
        ((if sb ≠ 0 then 1 else 0) :: array.tail, sb)
    else
      let bytes := (clipped * typeSz).toNat
      (byteOrderedCopy p.smallEndian
          (Segment.segment block.mblk.buf (signal.addr + 1 + offset * typeSz) bytes) bytes
          typeSz ++ array.drop bytes, sb)

/-- The array as `ioc_byte_ordered_copy` stores it. -/
def Signal.orderedArray (signal : Signal) (array : List UInt8) : List UInt8 :=
  if signal.typeId = .boolean then array
  else byteOrderedCopy p.smallEndian array array.length (typeSize signal.typeId)

/-! ## A processor -/

def textBytes (text : List Char) : List UInt8 := text.map fun c => UInt8.ofNat c.toNat

def bytesText (bytes : List UInt8) : List Char := bytes.map fun b => Char.ofNat b.toNat

def decimalText (v : ℤ) : List UInt8 :=
  if v < 0 then 0x2D :: textBytes (osalIntToStr v.natAbs)
  else textBytes (osalIntToStr v.natAbs)

def decimalValue : List UInt8 → ℤ
  | 0x2D :: digits => -(osalStrToInt (bytesText digits) : ℤ)
  | digits => osalStrToInt (bytesText digits)

theorem isDigit_bounds {c : Char} (h : c.isDigit = true) : 0x30 ≤ c.toNat ∧ c.toNat < 0x3A := by
  simp only [Char.isDigit, Bool.and_eq_true, decide_eq_true_eq, UInt32.le_iff_toNat_le] at h
  have hlo : 0x30 ≤ c.toNat := h.1
  have hhi : c.toNat ≤ 0x39 := h.2
  omega

theorem bytesText_textBytes {text : List Char} (h : ∀ c ∈ text, c.isDigit = true) :
    bytesText (textBytes text) = text := by
  unfold bytesText textBytes
  rw [List.map_map]
  refine (List.map_congr_left fun c hc => ?_).trans (List.map_id text)
  have hbounds := isDigit_bounds (h c hc)
  have hbyte : (UInt8.ofNat c.toNat).toNat = c.toNat := by
    rw [UInt8.toNat_ofNat']
    omega
  simp [hbyte]

theorem decimalValue_decimalText (v : ℤ) : decimalValue (decimalText v) = v := by
  have hdigits := bytesText_textBytes (osalIntToStr_isDigit v.natAbs)
  have hvalue : (osalStrToInt (osalIntToStr v.natAbs) : ℤ) = v.natAbs := by
    rw [osalStrToInt_osalIntToStr]
  unfold decimalText
  split
  · rename_i hneg
    simp only [decimalValue, hdigits, hvalue]
    omega
  · rename_i hpos
    have hsign : ∀ digits, textBytes (osalIntToStr v.natAbs) ≠ 0x2D :: digits := by
      intro digits hcons
      obtain ⟨c, rest, htext, hc, -⟩ := List.map_eq_cons_iff.mp hcons
      have hbounds := isDigit_bounds (osalIntToStr_isDigit v.natAbs c (by simp [htext]))
      have hbyte := congrArg UInt8.toNat hc
      rw [UInt8.toNat_ofNat'] at hbyte
      have hminus : (0x2D : UInt8).toNat = 45 := rfl
      omega
    unfold decimalValue
    split
    · rename_i digits heq
      exact absurd heq (hsign digits)
    · rw [hdigits, hvalue]
      omega

/-- A little-endian processor on which `os_char` is signed. -/
def littleEndianProcessor : SignalProcessor where
  smallEndian := true
  signedChar := true
  booleanValue := 1
  connected := 2
  intToStr := decimalText
  strToInt := decimalValue
  floating _ _ _ := 0
  strToFloating _ _ := 0
  booleanValue_ne := by decide
  connected_booleanValue := by decide
  booleanValue_noThreadSync := by decide
  connected_noThreadSync := by decide
  strToInt_intToStr v _ _ := decimalValue_decimalText v

end Iocom
