import Iocom.FlatBricks
import Iocom.BrickRuns
import Iocom.TargetBuffer

/-!
# The transfer of bricks in a flat buffer

What the sending end stores is read back by the receiving end if its header passes the
check there.  The sending end does not look at the header, and takes no uncompressed
brick: it compares the size with that of a buffer which only the JPEG library gets.
-/

namespace Iocom

open Buffer BrickParams FlatBrickParams

variable {prm : FlatBrickParams} {nbytes : ℤ} {signals : FlatBrickSignals prm.processor nbytes}
  {block : LinkedBlock}

/-! ## Writing the signals -/

namespace FlatBrickSignals

theorem buf_integer (signals : FlatBrickSignals prm.processor nbytes) :
    signals.buf.typeId.isInteger = true := by
  rcases signals.buf_byte with h | h <;> rw [h] <;> rfl

theorem buf_typeSize (signals : FlatBrickSignals prm.processor nbytes) :
    typeSize signals.buf.typeId = 1 := by
  rcases signals.buf_byte with h | h <;> rw [h] <;> rfl

theorem buf_orderedArray (signals : FlatBrickSignals prm.processor nbytes) (array : List UInt8) :
    signals.buf.orderedArray prm.processor array = array := by
  have hcopied : byteOrderedCopy prm.processor.smallEndian array array.length 1 = array := by
    simp [byteOrderedCopy, swapsBytes]
  unfold Signal.orderedArray
  rw [signals.buf_typeSize, hcopied, ite_self]

theorem buf_bytes (signals : FlatBrickSignals prm.processor nbytes) :
    signals.buf.n + 1 ≤ signals.buf.nroSignalBytes := by
  rw [Signal.nroSignalBytes_integer signals.buf_integer, signals.buf_typeSize]
  split <;> omega

theorem buf_inBlock {signals : FlatBrickSignals prm.processor nbytes}
    (hnbytes : block.mblk.nbytes = nbytes) {offset n : ℕ} (h : offset + n ≤ signals.buf.n) :
    signals.buf.InBlock block.mblk (signals.buf.rangeBytes offset n) := by
  have hinside := signals.inside signals.buf (by simp)
  have hbytes := signals.buf_bytes
  unfold Signal.InBlock Signal.rangeBytes
  rw [signals.buf_typeSize, if_neg (TypeId.ne_boolean_of_isInteger signals.buf_integer)]
  omega

theorem buf_clipped {signals : FlatBrickSignals prm.processor nbytes} {offset n : ℕ}
    (h : offset + n ≤ signals.buf.n) : signals.buf.clipped offset n = n := by
  unfold Signal.clipped
  split <;> omega

theorem value_inBlock {s : Signal}
    (hs : s ∈ [signals.cs, signals.buf, signals.head, signals.state]) (hnumeric : s.Numeric)
    (hnbytes : block.mblk.nbytes = nbytes) :
    s.InBlock block.mblk s.valueBytes := by
  have hinside := signals.inside s hs
  have hlt := s.valueBytes_lt hnumeric
  unfold Signal.InBlock
  omega

end FlatBrickSignals

variable (prm signals) in
theorem writeArray_spec (hnbytes : block.mblk.nbytes = nbytes) (offset : ℕ) (array : List UInt8)
    (h : offset + array.length ≤ signals.buf.n) :
    block.ConfinedWrite (prm.writeArray block signals.buf offset array) signals.buf ∧
      (prm.writeArray block signals.buf offset array).mblk.buf signals.buf.addr =
        prm.processor.connected ∧
      Segment.segment (prm.writeArray block signals.buf offset array).mblk.buf
        (signals.buf.addr + 1 + offset) array.length = array ∧
      ∀ i, i ≠ signals.buf.addr →
        (i < signals.buf.addr + 1 + offset ∨ signals.buf.addr + 1 + offset + array.length ≤ i) →
          (prm.writeArray block signals.buf offset array).mblk.buf i = block.mblk.buf i := by
  have hin := FlatBrickSignals.buf_inBlock hnbytes h
  have hsize := signals.buf_typeSize
  have hclipped := FlatBrickSignals.buf_clipped h
  unfold writeArray
  rw [signals.buf_orderedArray]
  have hstored := LinkedBlock.moveArray_integer_buf prm.processor.osal signals.buf_integer hin array
    prm.processor.connected
  refine ⟨LinkedBlock.moveArray_integer_confined prm.processor.osal signals.buf_integer offset _
    array _, ?_, ?_, ?_⟩
  · rw [hstored]
    exact LinkedBlock.storeArray_state
  · have hstart : signals.buf.addr + (offset : ℤ) * (1 : ℕ) + 1 =
        signals.buf.addr + 1 + offset := by
      push_cast
      ring
    have hall : array.take ((array.length : ℤ) * (1 : ℕ)).toNat = array := by simp
    rw [hstored, LinkedBlock.storeArray, hclipped, hsize, hstart, hall]
    exact LinkedBlock.segment_storeBytes _ _ _
  · intro i haddr hout
    rw [hstored]
    refine LinkedBlock.storeArray_of_outside haddr ?_
    rw [hclipped, hsize]
    push_cast
    omega

variable (prm signals) in
theorem setExt_spec (s : Signal) (hs : s ∈ [signals.cs, signals.buf, signals.head, signals.state])
    (hinteger : s.typeId.isInteger = true) (hnbytes : block.mblk.nbytes = nbytes) (value : ℕ) :
    block.ConfinedWrite (prm.setExt block s value) s ∧
      Segment.segment (prm.setExt block s value).mblk.buf s.addr (s.valueBytes + 1) =
        s.storedBytes prm.processor ⟨value, prm.processor.connected⟩ := by
  have hnumeric : s.Numeric := .inr hinteger
  have hin := FlatBrickSignals.value_inBlock hs hnumeric hnbytes
  unfold setExt
  rw [block.moveSignal_eq hnumeric]
  refine ⟨block.setSignal_confined hnumeric _, ?_⟩
  have hlength : (s.storedBytes prm.processor ⟨value, prm.processor.connected⟩).length =
      s.valueBytes + 1 := by
    simp [Signal.storedBytes, LittleEndian.ofInt_length]
  rw [LinkedBlock.setSignal_eq hnumeric hin, LinkedBlock.invalidate_mblk, ← hlength]
  exact LinkedBlock.segment_storeBytes _ _ _

/-! ## What the signals hold -/

structure HoldsBrick (signals : FlatBrickSignals prm.processor nbytes) (mem : Mem)
    (bytes : List UInt8) (checksum : ℕ) : Prop where
  cs : Segment.segment mem signals.cs.addr (signals.cs.valueBytes + 1) =
    signals.cs.storedBytes prm.processor ⟨checksum, prm.processor.connected⟩
  head : Segment.segment mem signals.head.addr (signals.head.valueBytes + 1) =
    signals.head.storedBytes prm.processor ⟨bytes.length, prm.processor.connected⟩
  bufState : mem signals.buf.addr = prm.processor.connected
  buf : Segment.segment mem (signals.buf.addr + 1) bytes.length = bytes

theorem HoldsBrick.congr {mem mem' : Mem} {bytes : List UInt8} {checksum : ℕ}
    (h : HoldsBrick signals mem bytes checksum) (hfits : bytes.length ≤ signals.buf.n)
    (hsame : ∀ i, signals.Holds i → mem' i = mem i) :
    HoldsBrick signals mem' bytes checksum := by
  have hcs := signals.cs.valueBytes_lt (.inr signals.cs_integer)
  have hhead := signals.head.valueBytes_lt (.inr signals.head_integer)
  have hbuf := signals.buf_bytes
  refine ⟨?_, ?_, ?_, ?_⟩
  · rw [← h.cs]
    exact Segment.segment_eq_iff.mpr fun i hlo hhi =>
      hsame i ⟨signals.cs, by simp, hlo, by omega⟩
  · rw [← h.head]
    exact Segment.segment_eq_iff.mpr fun i hlo hhi =>
      hsame i ⟨signals.head, by simp, hlo, by omega⟩
  · rw [← h.bufState]
    exact hsame _ ⟨signals.buf, by simp, le_refl _, by omega⟩
  · refine Eq.trans ?_ h.buf
    exact Segment.segment_eq_iff.mpr fun i hlo hhi =>
      hsame i ⟨signals.buf, by simp, by omega, by omega⟩

theorem segment_of_confined {written : LinkedBlock} {s other : Signal}
    (h : block.ConfinedWrite written s) (hdisjoint : s.Disjoint other ∨ other.Disjoint s)
    {first : ℤ} {n : ℕ} (hlo : other.addr ≤ first)
    (hhi : first + n ≤ other.addr + other.nroSignalBytes) :
    Segment.segment written.mblk.buf first n = Segment.segment block.mblk.buf first n := by
  refine Segment.segment_eq_iff.mpr fun i hi hi' => h.unchanged i ?_
  unfold Signal.Disjoint at hdisjoint
  omega

theorem cell_of_confined {written : LinkedBlock} {s other : Signal}
    (h : block.ConfinedWrite written s) (hdisjoint : s.Disjoint other ∨ other.Disjoint s) {i : ℤ}
    (hlo : other.addr ≤ i) (hhi : i < other.addr + other.nroSignalBytes) :
    written.mblk.buf i = block.mblk.buf i := by
  refine h.unchanged i ?_
  unfold Signal.Disjoint at hdisjoint
  omega

theorem FlatBrickSignals.disjoint' (signals : FlatBrickSignals prm.processor nbytes) :
    (signals.cs.Disjoint signals.buf ∧ signals.cs.Disjoint signals.head ∧
        signals.cs.Disjoint signals.state) ∧
      (signals.buf.Disjoint signals.head ∧ signals.buf.Disjoint signals.state) ∧
        signals.head.Disjoint signals.state := by
  have h := signals.disjoint
  simpa using h

theorem storeFlatBrick_spec (hnbytes : block.mblk.nbytes = nbytes) (frameCount : ℕ)
    (call : FlatBrickCall signals.buf.n) (compression : UInt8) {data : List UInt8}
    (hfits : data.length + 24 ≤ signals.buf.n) :
    (prm.storeFlatBrick signals block frameCount call compression data).mblk.nbytes = nbytes ∧
      HoldsBrick signals
        (prm.storeFlatBrick signals block frameCount call compression data).mblk.buf
        ((call.header compression data.length
            (prm.brickChecksum (call.header compression data.length 0) data)).bytes ++ data)
        (prm.brickChecksum (call.header compression data.length 0) data) := by
  obtain ⟨⟨hcsBuf, hcsHead, hcsState⟩, ⟨hbufHead, hbufState⟩, hheadState⟩ := signals.disjoint'
  unfold storeFlatBrick
  dsimp only
  generalize prm.brickChecksum (call.header compression data.length 0) data = checksum
  generalize hhdr : (call.header compression data.length checksum).bytes = hdr
  have hlength : hdr.length = 24 := by rw [← hhdr, BrickHdr.bytes_length]
  -- the data, the checksum, the header, the number of bytes and the state
  obtain ⟨hwrite₁, -, hdata, -⟩ := writeArray_spec prm signals hnbytes 24 data (by omega)
  generalize prm.writeArray block signals.buf 24 data = block₁ at *
  have hnbytes₁ := hwrite₁.nbytes_eq.trans hnbytes
  obtain ⟨hwrite₂, hcs⟩ := setExt_spec prm signals signals.cs (by simp) signals.cs_integer
    hnbytes₁ checksum
  generalize prm.setExt block₁ signals.cs checksum = block₂ at *
  have hnbytes₂ := hwrite₂.nbytes_eq.trans hnbytes₁
  obtain ⟨hwrite₃, hstate, hheader, hkept⟩ := writeArray_spec prm signals hnbytes₂ 0 hdr
    (by omega)
  generalize prm.writeArray block₂ signals.buf 0 hdr = block₃ at *
  have hnbytes₃ := hwrite₃.nbytes_eq.trans hnbytes₂
  obtain ⟨hwrite₄, hhead⟩ := setExt_spec prm signals signals.head (by simp) signals.head_integer
    hnbytes₃ (data.length + 24)
  generalize prm.setExt block₃ signals.head (data.length + 24) = block₄ at *
  have hnbytes₄ := hwrite₄.nbytes_eq.trans hnbytes₃
  obtain ⟨hwrite₅, -⟩ := setExt_spec prm signals signals.state (by simp) signals.state_integer
    hnbytes₄ frameCount
  generalize prm.setExt block₄ signals.state frameCount = block₅ at *
  have hcsLt := signals.cs.valueBytes_lt (.inr signals.cs_integer)
  have hheadLt := signals.head.valueBytes_lt (.inr signals.head_integer)
  have hbufBytes := signals.buf_bytes
  have hdata₃ : Segment.segment block₃.mblk.buf (signals.buf.addr + 1 + 24) data.length = data := by
    have hsame : Segment.segment block₃.mblk.buf (signals.buf.addr + 1 + 24) data.length =
        Segment.segment block₂.mblk.buf (signals.buf.addr + 1 + 24) data.length :=
      Segment.segment_eq_iff.mpr fun i hlo hhi => hkept i (by omega) (by omega)
    rw [hsame, segment_of_confined hwrite₂ (.inl hcsBuf) (by omega) (by omega)]
    exact hdata
  refine ⟨hwrite₅.nbytes_eq.trans hnbytes₄, ?_, ?_, ?_, ?_⟩
  · rw [segment_of_confined hwrite₅ (.inr hcsState) (le_refl _) (by omega),
      segment_of_confined hwrite₄ (.inr hcsHead) (le_refl _) (by omega),
      segment_of_confined hwrite₃ (.inr hcsBuf) (le_refl _) (by omega)]
    exact hcs
  · have hsz : (hdr ++ data).length = data.length + 24 := by
      rw [List.length_append, hlength, Nat.add_comm]
    rw [segment_of_confined hwrite₅ (.inr hheadState) (le_refl _) (by omega), hsz]
    exact hhead
  · rw [cell_of_confined hwrite₅ (.inr hbufState) (le_refl _) (by omega),
      cell_of_confined hwrite₄ (.inr hbufHead) (le_refl _) (by omega)]
    exact hstate
  · have hhead₃ : Segment.segment block₃.mblk.buf (signals.buf.addr + 1) hdr.length = hdr := by
      simpa using hheader
    rw [segment_of_confined hwrite₅ (.inr hbufState) (by omega)
        (by rw [List.length_append, hlength]; omega),
      segment_of_confined hwrite₄ (.inr hbufHead) (by omega)
        (by rw [List.length_append, hlength]; omega),
      List.length_append, Segment.segment_add, hhead₃, hlength]
    exact congrArg (hdr ++ ·) hdata₃

/-! ## Reading the signals -/

theorem and_connected (p : SignalProcessor) (value : Bool) :
    p.osal.setBooleanValue p.connected value &&& p.connected = p.connected := by
  unfold SignalOsal.setBooleanValue SignalProcessor.osal
  apply eq_of_bits
  intro i hi
  have hdisjoint := bits_of_and_eq_zero p.connected_booleanValue hi
  cases value <;> cases h : p.connected.toBitVec[i] <;> simp_all

variable (signals) in
theorem getSignal_of_stored (s : Signal) {v : ℕ}
    (hs : s ∈ [signals.cs, signals.buf, signals.head, signals.state])
    (hinteger : s.typeId.isInteger = true) (hnbytes : block.mblk.nbytes = nbytes)
    (htarget : block.tbufs ≠ []) (hrange : s.typeId.InRange prm.processor.signedChar v)
    (hstored : Segment.segment block.mblk.buf s.addr (s.valueBytes + 1) =
      s.storedBytes prm.processor ⟨v, prm.processor.connected⟩) (noTbufCheck : Bool) :
    (block.getSignal prm.processor s noTbufCheck).value = v ∧
      (block.getSignal prm.processor s noTbufCheck).stateBits &&& prm.processor.connected =
        prm.processor.connected := by
  have hnumeric : s.Numeric := .inr hinteger
  rw [Segment.segment_succ, Signal.storedBytes, List.cons.injEq] at hstored
  rw [LinkedBlock.getSignal_eq hnumeric (FlatBrickSignals.value_inBlock hs hnumeric hnbytes)
    hstored.1 hstored.2]
  constructor
  · dsimp only
    rw [if_neg (TypeId.ne_boolean_of_isInteger hinteger)]
    exact toInt_ofInt_inRange hinteger hrange
  · have hreturned : ∀ stateBits, block.returnedStateBits prm.processor stateBits noTbufCheck =
        stateBits := by
      intro stateBits
      simp [LinkedBlock.returnedStateBits, htarget]
    dsimp only
    rw [hreturned]
    exact and_connected _ _

theorem getArray_of_stored (hnbytes : block.mblk.nbytes = nbytes) {bytes : List UInt8}
    (old : List UInt8) (hbytes : bytes.length ≤ signals.buf.n)
    (hstored : Segment.segment block.mblk.buf (signals.buf.addr + 1) bytes.length = bytes)
    {n : ℕ} (hn : n ≤ bytes.length) :
    (block.getArray prm.processor signals.buf 0 old n false).1 = bytes.take n ++ old.drop n := by
  have hfits : 0 + n ≤ signals.buf.n := by omega
  have hsegment : Segment.segment block.mblk.buf (signals.buf.addr + 1) n = bytes.take n := by
    rw [← hstored, Segment.segment_take _ _ (by simpa using hn)]
  have hcopied : byteOrderedCopy prm.processor.smallEndian (bytes.take n) n 1 = bytes.take n := by
    simp [byteOrderedCopy, swapsBytes]
  rw [LinkedBlock.getArray_integer signals.buf_integer (FlatBrickSignals.buf_inBlock hnbytes hfits),
    FlatBrickSignals.buf_clipped hfits, signals.buf_typeSize]
  simp only [Int.toNat_natCast, Nat.mul_one, Nat.cast_zero, zero_mul, add_zero]
  rw [hsegment, hcopied]

/-! ## The header -/

theorem getBrickHdrInt_brickHdrInt_mod (n x : ℕ) :
    getBrickHdrInt (brickHdrInt n x) = x % 0x100 ^ n := by
  induction n generalizing x with
  | zero => simp [brickHdrInt, getBrickHdrInt, Nat.mod_one]
  | succ n ih =>
      have hpow : 0x100 ^ (n + 1) = 0x100 * 0x100 ^ n := pow_succ' 0x100 n
      rw [brickHdrInt, getBrickHdrInt, ih, UInt8.toNat_ofNat', hpow, Nat.mod_mul]

variable (prm) in
theorem knownFormat_iff (format : UInt8) :
    knownFormat format prm.formatList = true ↔ ∃ known, format = prm.formatCode known := by
  have hne := prm.formatCode_ne_zero
  unfold formatList
  simp only [knownFormat, hne, if_false, ite_self]
  constructor
  · intro h
    split_ifs at h with h₁ h₂ h₃ h₄
    · exact ⟨_, h₁⟩
    · exact ⟨_, h₂⟩
    · exact ⟨_, h₃⟩
    · exact ⟨_, h₄⟩
  · rintro ⟨known, rfl⟩
    cases known <;> simp

structure AdmissibleHeader (prm : FlatBrickParams) {bufN : ℕ} (call : FlatBrickCall bufN)
    (sz : ℕ) : Prop where
  format : ∃ known, call.format = prm.formatCode known
  width : 1 ≤ call.w % 0x10000 ∧ call.w % 0x10000 ≤ maxBrickWidth
  height : 1 ≤ call.h % 0x10000 ∧ call.h % 0x10000 ≤ maxBrickHeight
  size : 1 ≤ sz ∧ sz ≤ call.w % 0x10000 * (call.h % 0x10000) * prm.bytesPerPix call.format
  allocSz : 1 ≤ call.hdr.allocSz % 0x100000000 ∧ call.hdr.allocSz % 0x100000000 ≤
    3 * (maxBrickWidth * maxBrickHeight * prm.bytesPerPix call.format / 2) + 24

section Header

variable {bufN : ℕ} (call : FlatBrickCall bufN) (compression : UInt8) (sz checksum : ℕ)

theorem brickHdrOf_header :
    (brickHdrOf (call.header compression sz checksum).bytes).format = call.format ∧
      (brickHdrOf (call.header compression sz checksum).bytes).width = call.w % 0x10000 ∧
      (brickHdrOf (call.header compression sz checksum).bytes).height = call.h % 0x10000 ∧
      (brickHdrOf (call.header compression sz checksum).bytes).bufSz =
        (sz + 24) % 0x100000000 ∧
      (brickHdrOf (call.header compression sz checksum).bytes).allocSz =
        call.hdr.allocSz % 0x100000000 :=
  ⟨rfl, getBrickHdrInt_brickHdrInt_mod 2 call.w, getBrickHdrInt_brickHdrInt_mod 2 call.h,
    getBrickHdrInt_brickHdrInt_mod 4 (sz + 24), getBrickHdrInt_brickHdrInt_mod 4 call.hdr.allocSz⟩

theorem overwrite_header (checksum' : ℕ) (data : List UInt8) :
    overwrite ((call.header compression sz checksum).bytes ++ data) 2 (brickHdrInt 2 checksum') =
      (call.header compression sz checksum').bytes ++ data := rfl

theorem validate_header_iff (hsz : sz + 24 < 0x100000000) (hpos : 1 ≤ sz) :
    prm.validateBrickHeader (brickHdrOf (call.header compression sz checksum).bytes) = true ↔
      AdmissibleHeader prm call sz := by
  obtain ⟨hformat, hwidth, hheight, hbufSz, hallocSz⟩ :=
    brickHdrOf_header call compression sz checksum
  have hknown := knownFormat_iff prm call.format
  unfold validateBrickHeader
  dsimp only
  rw [hformat, hwidth, hheight, hbufSz, hallocSz, Nat.mod_eq_of_lt hsz]
  constructor
  · intro h
    split_ifs at h with h₁ h₂
    rw [Bool.not_eq_true', decide_eq_false_iff_not] at h
    have hformat : knownFormat call.format prm.formatList = true := by simpa using h₁
    exact ⟨hknown.mp hformat, by omega, by omega, by omega, by omega⟩
  · rintro ⟨hlisted, hw, hh, hsize, halloc⟩
    rw [hknown.mpr hlisted, if_neg (by simp), if_neg (by omega), Bool.not_eq_true',
      decide_eq_false_iff_not]
    omega

end Header

/-! ## Receiving -/

variable (prm) in
theorem flatBuffer_memory (b : FlatReceiver) (n : ℕ) :
    ∃ buf, prm.flatBuffer b n true = some buf ∧ n ≤ buf.length := by
  have hgranted := prm.le_granted n
  unfold flatBuffer
  cases b.buf with
  | none => exact ⟨_, rfl, by simpa using hgranted⟩
  | some buf =>
      dsimp only
      by_cases h : buf.length < n
      · exact ⟨_, by rw [if_pos h, if_pos rfl], by simpa using hgranted⟩
      · exact ⟨buf, if_neg h, by omega⟩

section Receive

variable {call : FlatBrickCall signals.buf.n} {compression : UInt8} {data : List UInt8}
  (hnbytes : block.mblk.nbytes = nbytes) (htarget : block.tbufs ≠ [])
  (hfits : data.length + 24 ≤ signals.buf.n) {checksum : ℕ}
  (h : HoldsBrick signals block.mblk.buf
    ((call.header compression data.length checksum).bytes ++ data) checksum)
  (b : FlatReceiver) (memory : Bool)
include hnbytes hfits h

theorem header_read :
    (block.getArray prm.processor signals.buf 0 (List.replicate 24 0) 24 false).1 =
      (call.header compression data.length checksum).bytes := by
  have hhdr := (call.header compression data.length checksum).bytes_length
  have hle : 24 ≤ ((call.header compression data.length checksum).bytes ++ data).length := by
    rw [List.length_append, hhdr]
    omega
  have hroom : ((call.header compression data.length checksum).bytes ++ data).length ≤
      signals.buf.n := by
    rw [List.length_append, hhdr]
    omega
  rw [getArray_of_stored hnbytes (List.replicate 24 0) hroom h.buf hle]
  simp [hhdr]

include htarget

theorem head_read :
    osInt (block.getSignal prm.processor signals.head false).value = (data.length + 24 : ℕ) ∧
      (block.getSignal prm.processor signals.head false).stateBits &&& prm.processor.connected ≠
        0 := by
  have hbuf := signals.buf_n_lt
  have hsz : ((call.header compression data.length checksum).bytes ++ data).length =
      data.length + 24 := by
    rw [List.length_append, BrickHdr.bytes_length, Nat.add_comm]
  have hstored := h.head
  rw [hsz] at hstored
  obtain ⟨hvalue, hstate⟩ := getSignal_of_stored signals signals.head (by simp)
    signals.head_integer hnbytes htarget (signals.head_holds _ hfits) hstored false
  rw [hvalue, hstate]
  exact ⟨osInt_of_range (by omega) (by omega), prm.connected_ne⟩

theorem processFlatBrickData_refuses (hheader : ¬ AdmissibleHeader prm call data.length) :
    (prm.processFlatBrickData signals b block memory).2 = none := by
  obtain ⟨hhead, hstate⟩ := head_read hnbytes htarget hfits h
  have hbuf := signals.buf_n_lt
  unfold processFlatBrickData
  dsimp only
  rw [hhead]
  by_cases hempty : data.length = 0
  · rw [if_pos (.inl (by omega))]
  · have hvalid := mt (validate_header_iff call compression data.length checksum
      (by omega) (by omega)).mp hheader
    rw [if_neg (by simp only [hstate, or_false]; omega), header_read hnbytes hfits h,
      if_pos (.inr (by simpa using hvalid))]

/-- A brick with a header which passes the check is passed to the callback. -/
theorem processFlatBrickData_accepts (hheader : AdmissibleHeader prm call data.length)
    (hchecksum : checksum = prm.brickChecksum (call.header compression data.length 0) data) :
    (prm.processFlatBrickData signals b block true).2 =
      some ((call.header compression data.length 0).bytes ++ data) := by
  obtain ⟨hhead, hstate⟩ := head_read hnbytes htarget hfits h
  obtain ⟨buf, hbuffer, hroom⟩ := flatBuffer_memory prm b (data.length + 24)
  have hbuf := signals.buf_n_lt
  have hsize := hheader.size.1
  have hvalid := (validate_header_iff call compression data.length checksum
    (by omega) hsize).mpr hheader
  have hbufSz : osInt (brickHdrOf (call.header compression data.length checksum).bytes).bufSz =
      (data.length + 24 : ℕ) := by
    rw [(brickHdrOf_header call compression data.length checksum).2.2.2.1,
      Nat.mod_eq_of_lt (by omega)]
    exact osInt_of_range (by omega) (by omega)
  have hsz : ((call.header compression data.length checksum).bytes ++ data).length =
      data.length + 24 := by
    rw [List.length_append, BrickHdr.bytes_length, Nat.add_comm]
  have hread : (block.getArray prm.processor signals.buf 0 buf (data.length + 24) false).1 =
      (call.header compression data.length checksum).bytes ++ data ++
        buf.drop (data.length + 24) := by
    rw [getArray_of_stored hnbytes buf (by rw [hsz]; exact hfits) h.buf (by rw [hsz]),
      List.take_of_length_le (by rw [hsz])]
  have hclear : (clearBrickChecksum ((call.header compression data.length checksum).bytes ++ data ++
      buf.drop (data.length + 24))).take (data.length + 24) =
        (call.header compression data.length 0).bytes ++ data := by
    unfold clearBrickChecksum
    rw [take_overwrite (by simp) (by rw [List.length_append, hsz]; omega),
      List.take_left' hsz]
    exact overwrite_header call compression data.length checksum 0 data
  have hlt : checksum < 0x10000 := by
    rw [hchecksum, brickChecksum, prm.appendChecksum_checksum]
    exact prm.checksum_lt _
  have hcs : (block.getSignal prm.processor signals.cs true).value % 0x10000 = checksum := by
    rw [(getSignal_of_stored signals signals.cs (by simp) signals.cs_integer hnbytes htarget
      (signals.cs_holds _ hlt) h.cs true).1]
    omega
  have hsum : checksum = prm.checksum ((call.header compression data.length 0).bytes ++ data) := by
    rw [hchecksum, brickChecksum, prm.appendChecksum_checksum]
  unfold processFlatBrickData
  dsimp only
  rw [hhead, if_neg (by simp only [hstate, or_false]; omega), header_read hnbytes hfits h,
    if_neg (by simp [hbufSz, hvalid]), Int.toNat_natCast, hbuffer]
  dsimp only
  rw [hread, hclear, hcs, if_neg (by rw [← hsum]; simp)]

end Receive

/-! ## Runs -/

namespace FlatBrickCall

variable {bufN : ℕ} (call : FlatBrickCall bufN) (prm : FlatBrickParams)

/-- The data which has to be transferred: the compressed image if the JPEG library is used. -/
def source : Option (List UInt8) :=
  if call.usesJpeg prm && call.hdr.compression &&& 0x80 = 0 then
    if prm.useJpegLibrary && call.memory then call.jpeg else none
  else some call.data

def Fits : Prop := ∃ data, call.source prm = some data ∧ data.length + 24 ≤ bufN

structure Uncompressed : Prop where
  noJpeg : call.usesJpeg prm = false
  format : ∃ known, call.format = prm.formatCode known
  width : 1 ≤ call.w ∧ call.w ≤ maxBrickWidth
  height : 1 ≤ call.h ∧ call.h ≤ maxBrickHeight
  data_length : call.data.length = call.w * call.h * prm.bytesPerPix call.format

variable {call prm}

theorem copyOrCompress_of_noJpeg (h : call.usesJpeg prm = false) :
    call.copyOrCompress prm = .error .outOfBuffer := by
  unfold copyOrCompress
  dsimp only
  rw [h, if_neg (by decide), if_pos (by omega)]

theorem ok_iff_of_fits (compression : UInt8) {bytes : List UInt8} (data : List UInt8)
    (h : bytes.length + 24 ≤ bufN) :
    (∃ used, (.ok (compression, bytes) : Except FlatBrickStatus _) = .ok (used, data)) ↔
      some bytes = some data ∧ data.length + 24 ≤ bufN := by
  constructor
  · rintro ⟨used, hok⟩
    obtain ⟨rfl, rfl⟩ : compression = used ∧ bytes = data := by simpa using hok
    exact ⟨rfl, h⟩
  · rintro ⟨hdata, -⟩
    exact ⟨compression, by rw [Option.some.inj hdata]⟩

theorem copyOrCompress_ok_iff (h : call.usesJpeg prm = true) {data : List UInt8} :
    (∃ compression, call.copyOrCompress prm = .ok (compression, data)) ↔
      call.source prm = some data ∧ data.length + 24 ≤ bufN := by
  by_cases hjpeg : call.hdr.compression &&& 0x80 = 0
  · cases hlibrary : prm.useJpegLibrary with
    | false => simp [copyOrCompress, source, h, hjpeg, hlibrary]
    | true =>
        cases hmemory : call.memory with
        | false => simp [copyOrCompress, source, h, hjpeg, hlibrary, hmemory]
        | true =>
            cases hbytes : call.jpeg with
            | none => simp [copyOrCompress, source, h, hjpeg, hlibrary, hmemory, hbytes]
            | some bytes =>
                have hiff := ok_iff_of_fits 0x80 data (call.jpeg_fits bytes hbytes)
                simpa [copyOrCompress, source, h, hjpeg, hlibrary, hmemory, hbytes] using hiff
  · by_cases hlarge : bufN < call.data.length + 24
    · simp only [copyOrCompress, source, h, hjpeg, hlarge, if_true, ne_eq, not_false_eq_true,
        reduceCtorEq, exists_false, decide_false, Bool.and_false, Bool.false_eq_true, if_false,
        Option.some.injEq, false_iff, not_and]
      rintro rfl
      omega
    · have hiff := ok_iff_of_fits call.hdr.compression data (Nat.le_of_not_lt hlarge)
      simpa [copyOrCompress, source, h, hjpeg, hlarge] using hiff

theorem copyOrCompress_ne_success {status : FlatBrickStatus}
    (h : call.copyOrCompress prm = .error status) : status ≠ .success := by
  unfold copyOrCompress at h
  dsimp only at h
  split_ifs at h
  all_goals first
    | (obtain rfl := Except.error.inj h; decide)
    | (split at h <;> cases h; decide)

end FlatBrickCall

namespace FlatBrickAssembly

variable (a : FlatBrickAssembly prm)

/-- What a step has to do: an uncompressed brick which fits is stored, one which does not
fit is refused, a refused brick changes no signal, and a brick which has been transferred is
passed to the callback with its header and its data. -/
def StepRight (t : FlatBrickTransfer) : FlatBrickAction a.signals.buf.n → Prop
  | .store call =>
      (call.Uncompressed prm → call.Fits prm →
        (prm.compressBrickFlat a.signals t.sender t.frameCount call).1 = .success) ∧
      (¬ call.Fits prm →
        (prm.compressBrickFlat a.signals t.sender t.frameCount call).1 ≠ .success) ∧
      ((prm.compressBrickFlat a.signals t.sender t.frameCount call).1 ≠ .success →
        (a.step t (.store call)).sender = t.sender)
  | .deliver => True
  | .receive memory => ∀ brick, t.got = some brick →
      (prm.processFlatBrickData a.signals t.buffer t.receiver memory).2 = some brick

def RunRight (t : FlatBrickTransfer) : List (FlatBrickAction a.signals.buf.n) → Prop
  | [] => True
  | action :: actions => a.StepRight t action ∧ RunRight (a.step t action) actions

/-- A brick is a JPEG image whose header passes the check if it fits, or it is neither
compressed nor does it fit; there is memory for what is received. -/
def Transferable : FlatBrickAction a.signals.buf.n → Prop
  | .store call =>
      if call.usesJpeg prm then
        ∀ data, call.source prm = some data → data.length + 24 ≤ a.signals.buf.n →
          AdmissibleHeader prm call data.length
      else ¬ (call.Uncompressed prm ∧ call.Fits prm)
  | .deliver => True
  | .receive memory => memory = true

/-- The memory holds a brick which is stored as `brick`. -/
def HoldsStored (mem : Mem) (brick : List UInt8) : Prop :=
  ∃ (call : FlatBrickCall a.signals.buf.n) (compression : UInt8) (data : List UInt8),
    brick = a.storedBrick call compression data ∧ data.length + 24 ≤ a.signals.buf.n ∧
      AdmissibleHeader prm call data.length ∧
      HoldsBrick a.signals mem
        ((call.header compression data.length
          (prm.brickChecksum (call.header compression data.length 0) data)).bytes ++ data)
        (prm.brickChecksum (call.header compression data.length 0) data)

structure Ready (t : FlatBrickTransfer) : Prop where
  sender_nbytes : t.sender.mblk.nbytes = a.nbytes
  receiver_nbytes : t.receiver.mblk.nbytes = a.nbytes
  receiver_target : t.receiver.tbufs ≠ []
  stored : ∀ brick, t.stored = some brick → a.HoldsStored t.sender.mblk.buf brick
  got : ∀ brick, t.got = some brick → a.HoldsStored t.receiver.mblk.buf brick

theorem ready_initial : a.Ready a.initial where
  sender_nbytes := a.sender_nbytes
  receiver_nbytes := a.receiver_nbytes
  receiver_target := a.receiver_target
  stored _ h := by cases h
  got _ h := by cases h

variable {a} {t : FlatBrickTransfer} {call : FlatBrickCall a.signals.buf.n}

theorem compressBrickFlat_error {status : FlatBrickStatus}
    (h : call.copyOrCompress prm = .error status) :
    prm.compressBrickFlat a.signals t.sender t.frameCount call =
      (status, t.sender, t.frameCount) := by
  rw [compressBrickFlat, h]

theorem compressBrickFlat_ok {compression : UInt8} {data : List UInt8}
    (h : call.copyOrCompress prm = .ok (compression, data)) :
    prm.compressBrickFlat a.signals t.sender t.frameCount call =
      (.success,
        prm.storeFlatBrick a.signals t.sender (nextFrameCount t.frameCount) call compression data,
        nextFrameCount t.frameCount) := by
  rw [compressBrickFlat, h]

theorem fits_of_ok {compression : UInt8} {data : List UInt8}
    (h : call.copyOrCompress prm = .ok (compression, data)) :
    call.usesJpeg prm = true ∧ call.source prm = some data ∧
      data.length + 24 ≤ a.signals.buf.n := by
  cases hjpeg : call.usesJpeg prm with
  | false =>
      rw [FlatBrickCall.copyOrCompress_of_noJpeg hjpeg] at h
      cases h
  | true => exact ⟨rfl, (FlatBrickCall.copyOrCompress_ok_iff hjpeg).mp ⟨_, h⟩⟩

theorem stepRight_store (h : ¬ (call.Uncompressed prm ∧ call.Fits prm)) :
    a.StepRight t (.store call) := by
  refine ⟨fun huncompressed hfits => absurd ⟨huncompressed, hfits⟩ h, fun hlarge => ?_,
    fun hrefused => ?_⟩
  · cases hcopy : call.copyOrCompress prm with
    | error status =>
        rw [compressBrickFlat_error hcopy]
        exact FlatBrickCall.copyOrCompress_ne_success hcopy
    | ok selected => exact absurd ⟨selected.2, (fits_of_ok hcopy).2⟩ hlarge
  · cases hcopy : call.copyOrCompress prm with
    | error status => simp [step, compressBrickFlat_error hcopy]
    | ok selected =>
        rw [compressBrickFlat_ok hcopy] at hrefused
        exact absurd rfl hrefused

theorem HoldsStored.congr {mem mem' : Mem} {brick : List UInt8} (h : a.HoldsStored mem brick)
    (hsame : ∀ i, a.signals.Holds i → mem' i = mem i) : a.HoldsStored mem' brick := by
  obtain ⟨call, compression, data, hbrick, hfits, hheader, hholds⟩ := h
  refine ⟨call, compression, data, hbrick, hfits, hheader, hholds.congr ?_ hsame⟩
  rw [List.length_append, BrickHdr.bytes_length]
  omega

theorem Ready.receive (h : a.Ready t) {brick : List UInt8} (hgot : t.got = some brick) :
    (prm.processFlatBrickData a.signals t.buffer t.receiver true).2 = some brick := by
  obtain ⟨call, compression, data, rfl, hfits, hheader, hholds⟩ := h.got brick hgot
  exact processFlatBrickData_accepts h.receiver_nbytes h.receiver_target hfits hholds t.buffer
    hheader rfl

theorem Ready.deliver (h : a.Ready t) : a.Ready (a.step t .deliver) where
  sender_nbytes := h.sender_nbytes
  receiver_nbytes := h.receiver_nbytes
  receiver_target := h.receiver_target
  stored := h.stored
  got brick hbrick := (h.stored brick hbrick).congr fun _ hi => if_pos hi

theorem Ready.step_right (h : a.Ready t) {action : FlatBrickAction a.signals.buf.n}
    (htransferable : a.Transferable action) :
    a.StepRight t action ∧ a.Ready (a.step t action) := by
  cases action with
  | deliver => exact ⟨trivial, h.deliver⟩
  | receive memory =>
      have hmemory : memory = true := htransferable
      rw [hmemory]
      exact ⟨fun brick hgot => h.receive hgot,
        ⟨h.sender_nbytes, h.receiver_nbytes, h.receiver_target, h.stored, h.got⟩⟩
  | store call =>
      unfold Transferable at htransferable
      dsimp only at htransferable
      constructor
      · refine stepRight_store fun hfits => ?_
        rw [if_neg (by rw [hfits.1.noJpeg]; decide)] at htransferable
        exact htransferable hfits
      · cases hcopy : call.copyOrCompress prm with
        | error status =>
            have hstep : a.step t (.store call) = t := by
              simp [step, compressBrickFlat_error hcopy, hcopy]
            rw [hstep]
            exact h
        | ok selected =>
            obtain ⟨compression, data⟩ := selected
            obtain ⟨hjpeg, hsource, hfits⟩ := fits_of_ok hcopy
            rw [if_pos hjpeg] at htransferable
            have hstep : a.step t (.store call) =
                { t with
                  sender := prm.storeFlatBrick a.signals t.sender (nextFrameCount t.frameCount)
                    call compression data
                  frameCount := nextFrameCount t.frameCount
                  stored := some (a.storedBrick call compression data) } := by
              simp [step, compressBrickFlat_ok hcopy, hcopy]
            obtain ⟨hnbytes, hholds⟩ := storeFlatBrick_spec h.sender_nbytes
              (nextFrameCount t.frameCount) call compression hfits
            rw [hstep]
            refine ⟨hnbytes, h.receiver_nbytes, h.receiver_target, fun brick hbrick => ?_, h.got⟩
            exact ⟨call, compression, data, (Option.some.inj hbrick).symm, hfits,
              htransferable data hsource hfits, hholds⟩

theorem Ready.run_right (h : a.Ready t) (actions : List (FlatBrickAction a.signals.buf.n))
    (htransferable : ∀ action ∈ actions, a.Transferable action) : a.RunRight t actions := by
  induction actions generalizing t with
  | nil => trivial
  | cons action actions ih =>
      obtain ⟨hright, hready⟩ := h.step_right (htransferable action (by simp))
      exact ⟨hright, ih hready fun other hother => htransferable other (by simp [hother])⟩

/-- A brick which is stored, transferred and received as it has to be is transferable. -/
theorem transferable_of_runRight (h : a.Ready t)
    (hrun : a.RunRight t [.store call, .deliver, .receive true]) :
    a.Transferable (.store call) := by
  obtain ⟨hstore, -, hreceive, -⟩ := hrun
  unfold Transferable
  dsimp only
  split_ifs with hjpeg
  · intro data hsource hfits
    obtain ⟨compression, hcopy⟩ := (FlatBrickCall.copyOrCompress_ok_iff hjpeg).mpr
      ⟨hsource, hfits⟩
    have hstored : (a.step t (.store call)).stored =
        some (a.storedBrick call compression data) := by
      simp [step, hcopy]
    have hsender : (a.step t (.store call)).sender =
        prm.storeFlatBrick a.signals t.sender (nextFrameCount t.frameCount) call compression
          data := by
      simp [step, compressBrickFlat_ok hcopy]
    obtain ⟨hnbytes, hholds⟩ := storeFlatBrick_spec h.sender_nbytes
      (nextFrameCount t.frameCount) call compression hfits
    have hreceived := hreceive _ hstored
    by_contra hheader
    have hdelivered : (a.step (a.step t (.store call)) .deliver).receiver.mblk.nbytes =
        t.receiver.mblk.nbytes := rfl
    have hrefused := processFlatBrickData_refuses (hdelivered.trans h.receiver_nbytes)
      h.receiver_target hfits
      (hholds.congr (by rw [List.length_append, BrickHdr.bytes_length]; omega) fun i hi => by
        rw [← hsender]
        exact if_pos hi)
      t.buffer true hheader
    exact absurd (hrefused.symm.trans hreceived) (by simp)
  · rintro ⟨huncompressed, hfits⟩
    have hsuccess := hstore.1 huncompressed hfits
    have hcopy := FlatBrickCall.copyOrCompress_of_noJpeg huncompressed.noJpeg
    rw [compressBrickFlat_error hcopy] at hsuccess
    cases hsuccess

end FlatBrickAssembly

/-- Runs of transferable bricks go right, and each other brick goes wrong. -/
theorem flat_brick_transfer (prm : FlatBrickParams) (a : FlatBrickAssembly prm) :
    (∀ actions : List (FlatBrickAction a.signals.buf.n),
      (∀ action ∈ actions, a.Transferable action) → a.RunRight a.initial actions) ∧
    ∀ call : FlatBrickCall a.signals.buf.n,
      a.RunRight a.initial [.store call, .deliver, .receive true] ↔
        a.Transferable (.store call) := by
  refine ⟨fun actions => a.ready_initial.run_right actions, fun call =>
    ⟨FlatBrickAssembly.transferable_of_runRight a.ready_initial, fun hcall => ?_⟩⟩
  refine a.ready_initial.run_right _ fun action haction => ?_
  simp only [List.mem_cons, List.not_mem_nil, or_false] at haction
  rcases haction with rfl | rfl | rfl
  · exact hcall
  · trivial
  · rfl

/-! ## An image of one pixel -/

def smallFlatParams : FlatBrickParams where
  toBrickParams := smallBrickParams
  processor := littleEndianProcessor
  connected_ne := by decide
  useJpegLibrary := false
  appendChecksum checksum bytes := (checksum + (bytes.map UInt8.toNat).sum) % 0x10000
  appendChecksum_checksum a b := by simp [smallBrickParams]

/-! The signals of a small block, with a buffer of 64 bytes behind the other signals. -/

def smallFlatState : Signal := ⟨0, 1, .ushort⟩

def smallFlatCs : Signal := ⟨3, 1, .ushort⟩

def smallFlatHead : Signal := ⟨6, 1, .int⟩

def smallFlatBuf : Signal := ⟨11, 64, .uchar⟩

theorem smallFlatCs_integer : smallFlatCs.typeId.isInteger = true := rfl

theorem smallFlatHead_integer : smallFlatHead.typeId.isInteger = true := rfl

theorem smallFlatState_integer : smallFlatState.typeId.isInteger = true := rfl

theorem smallFlatBuf_byte : smallFlatBuf.typeId = .char ∨ smallFlatBuf.typeId = .uchar := .inr rfl

theorem smallFlatCs_holds (checksum : ℕ) (h : checksum < 0x10000) :
    smallFlatCs.typeId.InRange littleEndianProcessor.signedChar checksum := by
  simp [smallFlatCs, TypeId.InRange, TypeId.isSigned, typeSize]
  omega

theorem smallFlatHead_holds (n : ℕ) (h : n ≤ smallFlatBuf.n) :
    smallFlatHead.typeId.InRange littleEndianProcessor.signedChar n := by
  simp [smallFlatHead, smallFlatBuf, TypeId.InRange, TypeId.isSigned, typeSize] at h ⊢
  omega

theorem smallFlatBuf_n_lt : smallFlatBuf.n < 2147483648 := by decide

theorem smallFlatSignals_inside : ∀ s ∈ [smallFlatCs, smallFlatBuf, smallFlatHead, smallFlatState],
    0 ≤ s.addr ∧ s.addr + s.nroSignalBytes ≤ 76 := by decide

theorem smallFlatSignals_disjoint :
    [smallFlatCs, smallFlatBuf, smallFlatHead, smallFlatState].Pairwise Signal.Disjoint := by
  simp [smallFlatCs, smallFlatBuf, smallFlatHead, smallFlatState, Signal.Disjoint,
    Signal.nroSignalBytes, typeSize]

def smallFlatSignals : FlatBrickSignals littleEndianProcessor 76 where
  state := smallFlatState
  cs := smallFlatCs
  head := smallFlatHead
  buf := smallFlatBuf
  cs_integer := smallFlatCs_integer
  head_integer := smallFlatHead_integer
  state_integer := smallFlatState_integer
  buf_byte := smallFlatBuf_byte
  cs_holds := smallFlatCs_holds
  head_holds := smallFlatHead_holds
  buf_n_lt := smallFlatBuf_n_lt
  inside := smallFlatSignals_inside
  disjoint := smallFlatSignals_disjoint

def smallFlatBlock (tbufs : List TargetBuffer) : LinkedBlock where
  name := ⟨"exp", "camera", 1, "cafenet"⟩
  dynamic := false
  mblk := ⟨3, ⟨true, false, false, false, false⟩, 76, true, fun _ => 0⟩
  sbufs := []
  tbufs := tbufs

def smallFlatAssembly : FlatBrickAssembly smallFlatParams where
  nbytes := 76
  signals := smallFlatSignals
  sender := smallFlatBlock []
  receiver := smallFlatBlock
    [initializeTargetBuffer ⟨1, false⟩ (smallFlatBlock []).mblk 3 false]
  sender_nbytes := rfl
  receiver_nbytes := rfl
  receiver_target := by simp [smallFlatBlock]

/-- An image of one pixel in shades of grey. -/
def onePixelCall : FlatBrickCall 64 where
  hdr := ⟨8, 0, 0, 1, 1, 25, 25, 0⟩
  data := [0x80]
  format := 8
  w := 1
  h := 1
  compression := 0
  memory := true
  jpeg := none
  jpeg_fits _ h := by cases h
  time := 0

/-- The image is refused although it fits. -/
theorem uncompressed_brick_refused :
    ¬ smallFlatAssembly.RunRight smallFlatAssembly.initial
      [.store onePixelCall, .deliver, .receive true] := by
  intro hrun
  refine FlatBrickAssembly.transferable_of_runRight smallFlatAssembly.ready_initial hrun ?_
  exact ⟨⟨rfl, ⟨.grayscale8, rfl⟩, by decide, by decide, rfl⟩, [0x80], rfl, by decide⟩

end Iocom
