import Iocom.Frame
import Mathlib.Tactic.Ring

/-!
# Frames as bytes

The bytes which `ioc_generate_header` and its callers put together, and the
fields which `ioc_connection_receive` takes out of a complete frame.  A serial
frame carries a checksum, computed while the place of the checksum is zero, and
one byte of data size; a socket frame carries two bytes of data size.
-/

namespace Iocom

def isTwoBytes (i : ℕ) : Bool := decide (0x100 ≤ i) && decide (i < 0x10000)

def isFourBytes (i : ℕ) : Bool := decide (0x10000 ≤ i)

/-- The flags byte, with the bits `IOC_DELTA_ENCODED`, `IOC_COMPRESESSED`,
`IOC_ADDR_HAS_TWO_BYTES`, `IOC_MBLK_HAS_TWO_BYTES`, `IOC_SYNC_COMPLETE`,
`IOC_SYSTEM_FRAME` and `IOC_EXTRA_FLAGS`. -/
def Frame.flagsByte (frame : Frame) : ℕ :=
  frame.flags.deltaEncoded.toNat + 2 * frame.flags.compressed.toNat +
    4 * (isTwoBytes frame.addr).toNat + 8 * (isTwoBytes frame.mblkId).toNat +
    16 * frame.flags.syncComplete.toNat + 32 * frame.system.toNat +
    128 * (needsExtraFlags frame.mblkId frame.addr).toNat

/-- The byte of extra flags, with `IOC_EXTRA_ADDR_HAS_FOUR_BYTES`,
`IOC_EXTRA_MBLK_HAS_FOUR_BYTES` and `IOC_EXTRA_NO_ZERO`. -/
def Frame.extraFlagsByte (frame : Frame) : ℕ :=
  128 + (isFourBytes frame.addr).toNat + 2 * (isFourBytes frame.mblkId).toNat

def Frame.variablePart (frame : Frame) : List UInt8 :=
  (if needsExtraFlags frame.mblkId frame.addr then
    [UInt8.ofNat frame.extraFlagsByte] else []) ++
    uintBytes frame.mblkId ++ uintBytes frame.addr ++ frame.payload

def Frame.encodeWith (isSocket : Bool) (crc : ℕ) (frame : Frame) : List UInt8 :=
  (if isSocket then
    [UInt8.ofNat frame.frameNr, UInt8.ofNat frame.flagsByte,
      UInt8.ofNat frame.payload.length,
      UInt8.ofNat (frame.payload.length / 0x100)]
  else
    [UInt8.ofNat frame.frameNr, UInt8.ofNat crc, UInt8.ofNat (crc / 0x100),
      UInt8.ofNat frame.flagsByte, UInt8.ofNat frame.payload.length]) ++
    frame.variablePart

/-- The bytes of the frame on the line; `checksum` is `os_checksum`. -/
def Frame.encode (checksum : List UInt8 → ℕ) (isSocket : Bool) (frame : Frame) :
    List UInt8 :=
  frame.encodeWith isSocket
    (if isSocket then 0 else checksum (frame.encodeWith isSocket 0) % 0x10000)

/-- `ioc_msg_get_uint`. -/
def getUint (p : List UInt8) (twoBytes fourBytes : Bool) : ℕ × List UInt8 :=
  if fourBytes then
    ((p.getD 0 0).toNat + 0x100 * (p.getD 1 0).toNat +
      0x10000 * (p.getD 2 0).toNat + 0x1000000 * (p.getD 3 0).toNat, p.drop 4)
  else if twoBytes then
    ((p.getD 0 0).toNat + 0x100 * (p.getD 1 0).toNat, p.drop 2)
  else ((p.getD 0 0).toNat, p.drop 1)

def fixedHeaderSize (isSocket : Bool) : ℕ := if isSocket then 4 else 5

/-- The fields of a complete frame, as `ioc_connection_receive` takes them out
of the bytes with the flags and the data size found while reading. -/
def decodeFrame
    (isSocket : Bool) (buf : List UInt8) (flags extraFlags dataSz : ℕ) : Frame :=
  let p := buf.drop (fixedHeaderSize isSocket)
  let p := if extraFlags ≠ 0 then p.drop 1 else p
  let mblkId := getUint p (flags.testBit 3) (extraFlags.testBit 1)
  let addr := getUint mblkId.2 (flags.testBit 2) (extraFlags.testBit 0)
  { frameNr := (buf.getD 0 0).toNat
    system := flags.testBit 5
    flags :=
      { deltaEncoded := flags.testBit 0
        compressed := flags.testBit 1
        syncComplete := flags.testBit 4 }
    mblkId := mblkId.1
    addr := addr.1
    payload := addr.2.take dataSz }

/-- What `ioc_read_frame` finds in the first bytes of a frame: its flags, its
data size, and the size of the whole frame. -/
structure HeaderFields where
  flags : ℕ
  extraFlags : ℕ
  dataSz : ℕ
  deriving DecidableEq

def headerFieldsEnd (isSocket : Bool) : ℕ := if isSocket then 5 else 6

def readHeader (isSocket : Bool) (buf : List UInt8) : HeaderFields :=
  if isSocket then
    let flags := (buf.getD 1 0).toNat
    { flags := flags
      extraFlags := if flags.testBit 7 then (buf.getD 4 0).toNat else 0
      dataSz := (buf.getD 2 0).toNat + 0x100 * (buf.getD 3 0).toNat }
  else
    let flags := (buf.getD 3 0).toNat
    { flags := flags
      extraFlags := if flags.testBit 7 then (buf.getD 5 0).toNat else 0
      dataSz := (buf.getD 4 0).toNat }

def extraBytes (twoBytes fourBytes : Bool) : ℕ :=
  if fourBytes then 3 else if twoBytes then 1 else 0

def HeaderFields.needed (fields : HeaderFields) (isSocket : Bool) : ℕ :=
  fields.dataSz + (if isSocket then 6 else 7) +
    (if fields.flags.testBit 7 then 1 else 0) +
    extraBytes (fields.flags.testBit 3) (fields.extraFlags.testBit 1) +
    extraBytes (fields.flags.testBit 2) (fields.extraFlags.testBit 0)

def parseFrame (isSocket : Bool) (buf : List UInt8) : Frame :=
  let fields := readHeader isSocket buf
  decodeFrame isSocket buf fields.flags fields.extraFlags fields.dataSz

/-! ## What the decoder finds -/

theorem uInt8_toNat_ofNat (n : ℕ) : (UInt8.ofNat n).toNat = n % 0x100 := by
  simp

theorem getUint_uintBytes {i : ℕ} (hi : i < 0x100000000) (rest : List UInt8) :
    getUint (uintBytes i ++ rest) (isTwoBytes i) (isFourBytes i) = (i, rest) := by
  unfold uintBytes getUint isTwoBytes isFourBytes
  by_cases hone : i < 0x100
  · have h1 : ¬0x10000 ≤ i := by omega
    have h2 : ¬0x100 ≤ i := by omega
    simp only [hone, h1, h2, decide_false, Bool.false_and, Bool.false_eq_true,
      if_true, if_false, List.cons_append, List.nil_append, List.getD_cons_zero,
      List.drop_succ_cons, List.drop_zero, uInt8_toNat_ofNat]
    rw [Nat.mod_eq_of_lt hone]
  by_cases htwo : i < 0x10000
  · have h1 : ¬0x10000 ≤ i := by omega
    have h2 : 0x100 ≤ i := by omega
    simp only [hone, htwo, h1, h2, decide_true, decide_false, Bool.and_self,
      Bool.false_eq_true, if_true, if_false, List.cons_append, List.nil_append,
      List.getD_cons_zero, List.getD_cons_succ, List.drop_succ_cons,
      List.drop_zero, uInt8_toNat_ofNat]
    congr 1
    omega
  · have h1 : 0x10000 ≤ i := by omega
    simp only [hone, htwo, h1, decide_true, if_true, if_false, List.cons_append,
      List.nil_append, List.getD_cons_zero, List.getD_cons_succ,
      List.drop_succ_cons, List.drop_zero, uInt8_toNat_ofNat]
    congr 1
    omega

theorem testBit_flagsByte (b0 b1 b2 b3 b4 b5 b7 : Bool) :
    let n := b0.toNat + 2 * b1.toNat + 4 * b2.toNat + 8 * b3.toNat +
      16 * b4.toNat + 32 * b5.toNat + 128 * b7.toNat
    n < 0x100 ∧ n.testBit 0 = b0 ∧ n.testBit 1 = b1 ∧ n.testBit 2 = b2 ∧
      n.testBit 3 = b3 ∧ n.testBit 4 = b4 ∧ n.testBit 5 = b5 ∧
      n.testBit 7 = b7 := by
  revert b0 b1 b2 b3 b4 b5 b7
  decide

theorem testBit_extraFlagsByte (b0 b1 : Bool) :
    let n := 128 + b0.toNat + 2 * b1.toNat
    n < 0x100 ∧ n ≠ 0 ∧ n.testBit 0 = b0 ∧ n.testBit 1 = b1 := by
  revert b0 b1
  decide

structure Frame.WellFormed (isSocket : Bool) (frame : Frame) : Prop where
  frameNr : frame.frameNr ≤ maxFrameNr
  mblkId : frame.mblkId < 0x100000000
  addr : frame.addr < 0x100000000
  dataSz : frame.payload.length < if isSocket then 0xFFFF else 0x100

def Frame.extraFlags (frame : Frame) : ℕ :=
  if needsExtraFlags frame.mblkId frame.addr then frame.extraFlagsByte else 0

theorem Frame.encodeWith_length (isSocket : Bool) (crc : ℕ) (frame : Frame) :
    (frame.encodeWith isSocket crc).length =
      headerSize isSocket frame.mblkId frame.addr + frame.payload.length := by
  unfold Frame.encodeWith Frame.variablePart headerSize
  cases isSocket <;>
    cases needsExtraFlags frame.mblkId frame.addr <;> simp <;> omega

theorem needsExtraFlags_eq (mblkId addr : ℕ) :
    needsExtraFlags mblkId addr = (isFourBytes mblkId || isFourBytes addr) := rfl

theorem Frame.flagsByte_bits (frame : Frame) :
    frame.flagsByte < 0x100 ∧
      frame.flagsByte.testBit 0 = frame.flags.deltaEncoded ∧
      frame.flagsByte.testBit 1 = frame.flags.compressed ∧
      frame.flagsByte.testBit 2 = isTwoBytes frame.addr ∧
      frame.flagsByte.testBit 3 = isTwoBytes frame.mblkId ∧
      frame.flagsByte.testBit 4 = frame.flags.syncComplete ∧
      frame.flagsByte.testBit 5 = frame.system ∧
      frame.flagsByte.testBit 7 = needsExtraFlags frame.mblkId frame.addr :=
  testBit_flagsByte frame.flags.deltaEncoded frame.flags.compressed
    (isTwoBytes frame.addr) (isTwoBytes frame.mblkId) frame.flags.syncComplete
    frame.system (needsExtraFlags frame.mblkId frame.addr)

theorem Frame.extraFlags_bits (frame : Frame) :
    frame.extraFlags < 0x100 ∧
      frame.extraFlags.testBit 0 = isFourBytes frame.addr ∧
      frame.extraFlags.testBit 1 = isFourBytes frame.mblkId ∧
      (frame.extraFlags ≠ 0 ↔
        needsExtraFlags frame.mblkId frame.addr = true) := by
  obtain ⟨hlt, hne, e0, e1⟩ :=
    testBit_extraFlagsByte (isFourBytes frame.addr) (isFourBytes frame.mblkId)
  unfold Frame.extraFlags
  cases hneeds : needsExtraFlags frame.mblkId frame.addr with
  | true =>
      simp only [if_true]
      exact ⟨hlt, e0, e1, fun _ => trivial, fun _ => hne⟩
  | false =>
      rw [needsExtraFlags_eq, Bool.or_eq_false_iff] at hneeds
      simp [hneeds]

/-- The fields of a frame which has been read up to the end of its header
fields, at least. -/
theorem readHeader_encodeWith
    {isSocket : Bool} (frame : Frame) (crc : ℕ) {n : ℕ}
    (hn : headerFieldsEnd isSocket ≤ n) :
    (readHeader isSocket ((frame.encodeWith isSocket crc).take n)).flags =
        frame.flagsByte ∧
      (readHeader isSocket ((frame.encodeWith isSocket crc).take n)).extraFlags =
        frame.extraFlags ∧
      (frame.payload.length < (if isSocket then 0x10000 else 0x100) →
        (readHeader isSocket ((frame.encodeWith isSocket crc).take n)).dataSz =
          frame.payload.length) := by
  have hget : ∀ k, k < headerFieldsEnd isSocket →
      ((frame.encodeWith isSocket crc).take n).getD k 0 =
        (frame.encodeWith isSocket crc).getD k 0 := by
    intro k hk
    rw [List.getD_eq_getElem?_getD, List.getElem?_take_of_lt (by omega),
      ← List.getD_eq_getElem?_getD]
  have hflags : (UInt8.ofNat frame.flagsByte).toNat = frame.flagsByte := by
    rw [uInt8_toNat_ofNat]
    exact Nat.mod_eq_of_lt frame.flagsByte_bits.1
  have hextra : (if needsExtraFlags frame.mblkId frame.addr = true then
      (frame.variablePart.getD 0 0).toNat else 0) = frame.extraFlags := by
    unfold Frame.extraFlags
    cases hneeds : needsExtraFlags frame.mblkId frame.addr with
    | false => rfl
    | true =>
        have hlt : frame.extraFlagsByte < 0x100 :=
          (testBit_extraFlagsByte (isFourBytes frame.addr)
            (isFourBytes frame.mblkId)).1
        simp only [if_true, Frame.variablePart, hneeds, List.cons_append,
          List.nil_append, List.getD_cons_zero, uInt8_toNat_ofNat]
        exact Nat.mod_eq_of_lt hlt
  unfold readHeader
  cases isSocket with
  | true =>
      have h1 : (frame.encodeWith true crc).getD 1 0 =
          UInt8.ofNat frame.flagsByte := by simp [Frame.encodeWith]
      have h2 : (frame.encodeWith true crc).getD 2 0 =
          UInt8.ofNat frame.payload.length := by simp [Frame.encodeWith]
      have h3 : (frame.encodeWith true crc).getD 3 0 =
          UInt8.ofNat (frame.payload.length / 0x100) := by
        simp [Frame.encodeWith]
      have h4 : (frame.encodeWith true crc).getD 4 0 =
          frame.variablePart.getD 0 0 := by simp [Frame.encodeWith]
      simp only [if_true, hget 1 (by decide), hget 2 (by decide),
        hget 3 (by decide), hget 4 (by decide), h1, h2, h3, h4, hflags,
        frame.flagsByte_bits.2.2.2.2.2.2.2, hextra, uInt8_toNat_ofNat]
      exact ⟨trivial, trivial, fun hsize => by omega⟩
  | false =>
      have h3 : (frame.encodeWith false crc).getD 3 0 =
          UInt8.ofNat frame.flagsByte := by simp [Frame.encodeWith]
      have h4 : (frame.encodeWith false crc).getD 4 0 =
          UInt8.ofNat frame.payload.length := by simp [Frame.encodeWith]
      have h5 : (frame.encodeWith false crc).getD 5 0 =
          frame.variablePart.getD 0 0 := by simp [Frame.encodeWith]
      simp only [Bool.false_eq_true, if_false, hget 3 (by decide),
        hget 4 (by decide), hget 5 (by decide), h3, h4, h5, hflags,
        frame.flagsByte_bits.2.2.2.2.2.2.2, hextra, uInt8_toNat_ofNat]
      exact ⟨trivial, trivial, fun hsize => by omega⟩

theorem uintSize_eq (i : ℕ) :
    uintSize i = 1 + extraBytes (isTwoBytes i) (isFourBytes i) := by
  unfold uintSize extraBytes isTwoBytes isFourBytes
  by_cases hone : i < 0x100
  · rw [if_pos hone, if_neg (by simp; omega), if_neg (by simp; omega)]
  rw [if_neg hone]
  by_cases htwo : i < 0x10000
  · rw [if_pos htwo, if_neg (by simp; omega), if_pos (by simp; omega)]
  · rw [if_neg htwo, if_pos (by simp; omega)]

/-- The size which the header tells is the size of the frame. -/
theorem needed_encodeWith
    {isSocket : Bool} {frame : Frame} {crc n : ℕ}
    (hn : headerFieldsEnd isSocket ≤ n)
    (hsize : frame.payload.length < if isSocket then 0x10000 else 0x100) :
    (readHeader isSocket ((frame.encodeWith isSocket crc).take n)).needed
        isSocket = (frame.encodeWith isSocket crc).length := by
  obtain ⟨hflags, hextra, hdata⟩ := readHeader_encodeWith frame crc hn
  unfold HeaderFields.needed
  rw [hflags, hextra, hdata hsize, frame.encodeWith_length,
    frame.flagsByte_bits.2.2.2.2.2.2.2, frame.flagsByte_bits.2.2.2.2.1,
    frame.flagsByte_bits.2.2.2.1, frame.extraFlags_bits.2.1,
    frame.extraFlags_bits.2.2.1]
  unfold headerSize
  rw [uintSize_eq frame.mblkId, uintSize_eq frame.addr]
  cases isSocket <;> simp <;> omega

theorem decodeFrame_encodeWith
    {isSocket : Bool} {frame : Frame} (crc dataSz : ℕ)
    (hmblk : frame.mblkId < 0x100000000) (haddr : frame.addr < 0x100000000) :
    decodeFrame isSocket (frame.encodeWith isSocket crc) frame.flagsByte
        frame.extraFlags dataSz =
      { frame with
        frameNr := frame.frameNr % 0x100
        payload := frame.payload.take dataSz } := by
  have hhead : ((frame.encodeWith isSocket crc).getD 0 0).toNat =
      frame.frameNr % 0x100 := by
    unfold Frame.encodeWith
    cases isSocket <;> simp
  have hdrop : (frame.encodeWith isSocket crc).drop (fixedHeaderSize isSocket) =
      frame.variablePart := by
    unfold Frame.encodeWith fixedHeaderSize
    cases isSocket <;> simp
  have hextra := frame.extraFlags_bits
  have hfields : (if frame.extraFlags ≠ 0 then frame.variablePart.drop 1
      else frame.variablePart) =
      uintBytes frame.mblkId ++ (uintBytes frame.addr ++ frame.payload) := by
    unfold Frame.variablePart
    by_cases hneeds : needsExtraFlags frame.mblkId frame.addr = true
    · rw [if_pos (hextra.2.2.2.mpr hneeds), if_pos hneeds]
      simp
    · rw [if_neg (fun h => hneeds (hextra.2.2.2.mp h)), if_neg hneeds]
      simp
  obtain ⟨-, h0, h1, h2, h3, h4, h5, -⟩ := frame.flagsByte_bits
  unfold decodeFrame
  dsimp only
  rw [hdrop, hfields, h3, hextra.2.2.1, getUint_uintBytes hmblk]
  dsimp only
  rw [h2, hextra.2.1, getUint_uintBytes haddr, hhead, h0, h1, h4, h5]

theorem Frame.encodeWith_take (isSocket : Bool) (crc : ℕ) (frame : Frame) :
    (frame.encodeWith isSocket crc).take (frame.encodeWith isSocket crc).length =
      frame.encodeWith isSocket crc := List.take_length

theorem headerFieldsEnd_le (isSocket : Bool) (crc : ℕ) (frame : Frame) :
    headerFieldsEnd isSocket ≤ (frame.encodeWith isSocket crc).length := by
  rw [frame.encodeWith_length]
  have hsize : ∀ i, 1 ≤ uintSize i := fun i => by
    rw [uintSize_eq]
    omega
  have := hsize frame.mblkId
  have := hsize frame.addr
  unfold headerFieldsEnd headerSize
  split <;> omega

/-- The identifier and the address in the header are read back, whatever the
rest of the frame is. -/
theorem parseFrame_fields
    {isSocket : Bool} {frame : Frame} (crc : ℕ)
    (hmblk : frame.mblkId < 0x100000000) (haddr : frame.addr < 0x100000000) :
    (parseFrame isSocket (frame.encodeWith isSocket crc)).mblkId = frame.mblkId ∧
      (parseFrame isSocket (frame.encodeWith isSocket crc)).addr = frame.addr := by
  obtain ⟨hflags, hextra, -⟩ :=
    readHeader_encodeWith frame crc (headerFieldsEnd_le isSocket crc frame)
  rw [Frame.encodeWith_take] at hflags hextra
  unfold parseFrame
  dsimp only
  rw [hflags, hextra, decodeFrame_encodeWith crc _ hmblk haddr]
  exact ⟨rfl, rfl⟩

end Iocom
