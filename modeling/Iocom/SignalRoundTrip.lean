import Iocom.StringRoundTrip

/-!
# Signals are read back

An integer or a boolean which is written to a signal with `ioc_move` or
`ioc_move_str` and what reading the signal returns.  A write touches the bytes
of the signal only, and invalidates those which it has changed.
-/

namespace Iocom

variable {p : SignalProcessor} {block : LinkedBlock} {signal : Signal}

/-! ## State bits -/

theorem eq_of_bits {a b : UInt8} (h : ∀ i (hi : i < 8), a.toBitVec[i] = b.toBitVec[i]) :
    a = b := by
  apply UInt8.toBitVec_inj.mp
  ext i hi
  exact h i hi

theorem bits_of_and_eq_zero {a b : UInt8} (h : a &&& b = 0) {i : ℕ} (hi : i < 8) :
    (a.toBitVec[i] && b.toBitVec[i]) = false := by
  have hbits := congrArg (fun c : UInt8 => c.toBitVec[i]) h
  simpa using hbits

/-- Equal up to the boolean value, and to `OSAL_STATE_CONNECTED` where no target buffer is
attached. -/
def LinkedBlock.SameStateBits (p : SignalProcessor) (block : LinkedBlock)
    (noTbufCheck : Bool) (written read : UInt8) : Prop :=
  read ||| p.booleanValue =
    block.returnedStateBits p written noTbufCheck ||| p.booleanValue

theorem LinkedBlock.sameStateBits_setBooleanValue (block : LinkedBlock)
    (stateBits : UInt8) (value noTbufCheck : Bool) :
    block.SameStateBits p noTbufCheck stateBits
      (block.returnedStateBits p (p.osal.setBooleanValue stateBits value) noTbufCheck) := by
  unfold LinkedBlock.SameStateBits LinkedBlock.returnedStateBits SignalOsal.setBooleanValue
    SignalProcessor.osal
  apply eq_of_bits
  intro i hi
  split <;> cases value <;> simp <;>
    cases p.booleanValue.toBitVec[i] <;> simp

theorem LinkedBlock.returnedStateBits_booleanValue (block : LinkedBlock)
    (stateBits : UInt8) (value noTbufCheck : Bool) :
    block.returnedStateBits p (p.osal.setBooleanValue stateBits value) noTbufCheck &&&
      p.booleanValue = if value then p.booleanValue else 0 := by
  unfold LinkedBlock.returnedStateBits SignalOsal.setBooleanValue SignalProcessor.osal
  apply eq_of_bits
  intro i hi
  have hdisjoint := bits_of_and_eq_zero p.connected_booleanValue hi
  split <;> cases value <;>
    cases hbool : p.booleanValue.toBitVec[i] <;> simp_all

/-! ## The bytes of a value -/

theorem TypeId.typeSize_of_isInteger {typeId : TypeId} (h : typeId.isInteger = true) :
    typeSize typeId = 1 ∨ typeSize typeId = 2 ∨ typeSize typeId = 4 ∨ typeSize typeId = 8 := by
  cases typeId <;> simp_all [TypeId.isInteger, typeSize]

/-- Between memory and processor the bytes of a value are turned around or not. -/
theorem byteOrderedCopy_value {smallEndian : Bool} {size : ℕ} {bytes : List UInt8}
    (hsize : size = 1 ∨ size = 2 ∨ size = 4 ∨ size = 8) (hlen : bytes.length = size) :
    byteOrderedCopy smallEndian bytes size size =
      if smallEndian then bytes else bytes.reverse := by
  unfold byteOrderedCopy swapsBytes
  cases smallEndian with
  | true => simp [← hlen]
  | false =>
      have hgroup : ReversedGroups.reverseGroups size 1 bytes = bytes.reverse := by
        simp [ReversedGroups.reverseGroups, List.take_of_length_le hlen.le]
      rcases hsize with rfl | rfl | rfl | rfl
      · obtain ⟨b, rfl⟩ := List.length_eq_one_iff.mp hlen
        simp
      · simpa using hgroup
      · simpa using hgroup
      · simpa using hgroup

theorem SignalProcessor.tconv_length (typeId : TypeId) (v : ℤ) :
    (p.tconv typeId v).length = typeSize typeId := by
  unfold SignalProcessor.tconv
  split <;> simp

theorem SignalProcessor.converted_eq {typeId : TypeId} (h : typeId.isInteger = true) (v : ℤ) :
    (List.range (typeSize typeId)).map (p.osal.converted typeId v) =
      LittleEndian.ofInt (typeSize typeId) v := by
  have hcopy : byteOrderedCopy p.smallEndian (p.tconv typeId v) (typeSize typeId)
      (typeSize typeId) = LittleEndian.ofInt (typeSize typeId) v := by
    rw [byteOrderedCopy_value (TypeId.typeSize_of_isInteger h) (p.tconv_length typeId v)]
    unfold SignalProcessor.tconv
    split <;> simp
  refine List.ext_getElem (by simp) fun k hk hk' => ?_
  simp only [List.getElem_map, List.getElem_range, SignalProcessor.osal, h, if_true, hcopy]
  rw [List.getD_eq_getElem?_getD, List.getElem?_eq_getElem hk', Option.getD_some]

theorem SignalProcessor.tconvValue_byteOrderedCopy {typeId : TypeId}
    (h : typeId.isInteger = true) (v : ℤ) :
    p.tconvValue typeId (byteOrderedCopy p.smallEndian
        (LittleEndian.ofInt (typeSize typeId) v) (typeSize typeId) (typeSize typeId)) =
      LittleEndian.toInt (typeId.isSigned p.signedChar)
        (LittleEndian.ofInt (typeSize typeId) v) := by
  rw [byteOrderedCopy_value (TypeId.typeSize_of_isInteger h) (LittleEndian.ofInt_length _ v)]
  unfold SignalProcessor.tconvValue
  split <;> simp

theorem TypeId.ne_boolean_of_isInteger {typeId : TypeId} (h : typeId.isInteger = true) :
    typeId ≠ .boolean := by
  rintro rfl
  simp [TypeId.isInteger] at h

theorem toInt_ofInt_inRange {signedChar : Bool} {typeId : TypeId} {v : ℤ}
    (h : typeId.isInteger = true) (hrange : typeId.InRange signedChar v) :
    LittleEndian.toInt (typeId.isSigned signedChar)
      (LittleEndian.ofInt (typeSize typeId) v) = v := by
  have hsize : 0 < typeSize typeId := by
    have hcases := TypeId.typeSize_of_isInteger h
    omega
  unfold TypeId.InRange at hrange
  rw [if_neg (TypeId.ne_boolean_of_isInteger h)] at hrange
  cases hsigned : typeId.isSigned signedChar with
  | true =>
      rw [hsigned, if_pos rfl] at hrange
      exact LittleEndian.toInt_ofInt_signed hsize hrange.1 hrange.2
  | false =>
      rw [hsigned, if_neg Bool.false_ne_true] at hrange
      exact LittleEndian.toInt_ofInt_unsigned hrange.1 hrange.2


/-! ## One signal -/

def Signal.Numeric (signal : Signal) : Prop :=
  signal.typeId = .boolean ∨ signal.typeId.isInteger = true

def Signal.valueBytes (signal : Signal) : ℕ :=
  if signal.typeId = .boolean then 0 else typeSize signal.typeId

def Signal.InBlock (signal : Signal) (mblk : MemoryBlock) (count : ℕ) : Prop :=
  0 ≤ signal.addr ∧ signal.addr + count < mblk.nbytes

structure LinkedBlock.ConfinedWrite (block written : LinkedBlock) (signal : Signal) :
    Prop where
  unchanged : ∀ i, i < signal.addr ∨ signal.addr + signal.nroSignalBytes ≤ i →
    written.mblk.buf i = block.mblk.buf i
  invalidated :
    (∃ startAddr endAddr,
      written.sbufs = block.sbufs.map
        (fun sbuf => sbuf.invalidate written.mblk startAddr endAddr) ∧
      ∀ i, written.mblk.buf i ≠ block.mblk.buf i → startAddr ≤ i ∧ i ≤ endAddr) ∨
    (written.sbufs = block.sbufs ∧ written.mblk.buf = block.mblk.buf)
  others : written =
    { block with mblk.buf := written.mblk.buf, sbufs := written.sbufs }

theorem LinkedBlock.ConfinedWrite.nbytes_eq {written : LinkedBlock}
    (h : block.ConfinedWrite written signal) : written.mblk.nbytes = block.mblk.nbytes :=
  congrArg (fun b => b.mblk.nbytes) h.others

theorem LinkedBlock.ConfinedWrite.returnedStateBits_eq {written : LinkedBlock}
    (h : block.ConfinedWrite written signal) (stateBits : UInt8) (noTbufCheck : Bool) :
    written.returnedStateBits p stateBits noTbufCheck =
      block.returnedStateBits p stateBits noTbufCheck := by
  have htbufs : written.tbufs = block.tbufs := congrArg (fun b => b.tbufs) h.others
  unfold LinkedBlock.returnedStateBits
  rw [htbufs]

theorem LinkedBlock.ConfinedWrite.inBlock {written : LinkedBlock}
    (h : block.ConfinedWrite written signal) {other : Signal} {count : ℕ}
    (hin : other.InBlock block.mblk count) : other.InBlock written.mblk count := by
  unfold Signal.InBlock at hin ⊢
  rwa [h.nbytes_eq]

theorem LinkedBlock.confinedWrite_storeBytes {bytes : List UInt8} {endAddr : ℤ}
    (hbytes : bytes.length ≤ signal.nroSignalBytes)
    (hend : signal.addr + bytes.length ≤ endAddr + 1) :
    block.ConfinedWrite ((block.storeBytes signal.addr bytes).invalidate signal.addr endAddr)
      signal := by
  have hout : ∀ i, i < signal.addr ∨ signal.addr + bytes.length ≤ i →
      (block.storeBytes signal.addr bytes).mblk.buf i = block.mblk.buf i := fun i hi =>
    Segment.combineAt_of_outside (fun _ new => new) block.mblk.buf signal.addr bytes hi
  refine ⟨fun i hi => hout i (by omega), Or.inl ⟨signal.addr, endAddr, rfl, fun i hi => ?_⟩,
    rfl⟩
  by_contra hrange
  exact hi (hout i (by omega))

def Signal.storedBytes (p : SignalProcessor) (signal : Signal) (v : SignalValue) :
    List UInt8 :=
  p.osal.setBooleanValue v.stateBits (decide (v.value ≠ 0)) ::
    LittleEndian.ofInt signal.valueBytes v.value

theorem LinkedBlock.setSignal_eq (hnumeric : signal.Numeric)
    (hin : signal.InBlock block.mblk signal.valueBytes) (v : SignalValue) :
    (block.setSignal p.osal signal v).1 =
      (block.storeBytes signal.addr (signal.storedBytes p v)).invalidate signal.addr
        (signal.addr + signal.valueBytes) := by
  have hout : ¬ (signal.addr < 0 ∨
      block.mblk.nbytes ≤ signal.addr + (signal.valueBytes : ℕ)) := by
    unfold Signal.InBlock at hin
    omega
  have hbytes : (List.range signal.valueBytes).map (p.osal.converted signal.typeId v.value) =
      LittleEndian.ofInt signal.valueBytes v.value := by
    rcases hnumeric with hboolean | hinteger
    · simp [Signal.valueBytes, hboolean, LittleEndian.ofInt, LittleEndian.split]
    · have hne := TypeId.ne_boolean_of_isInteger hinteger
      simp only [Signal.valueBytes, hne, if_false]
      exact SignalProcessor.converted_eq hinteger v.value
  unfold Signal.valueBytes at hout hbytes
  unfold LinkedBlock.setSignal Signal.storedBytes Signal.valueBytes
  dsimp only
  rw [if_neg hout, hbytes]

theorem LinkedBlock.setSignal_outside (hout : ¬ signal.InBlock block.mblk signal.valueBytes)
    (osal : SignalOsal) (v : SignalValue) :
    (block.setSignal osal signal v).1 = block := by
  have hcheck : signal.addr < 0 ∨
      block.mblk.nbytes ≤ signal.addr + (signal.valueBytes : ℕ) := by
    unfold Signal.InBlock at hout
    omega
  unfold Signal.valueBytes at hcheck
  unfold LinkedBlock.setSignal
  dsimp only
  rw [if_pos hcheck]

theorem Signal.nroSignalBytes_integer (h : signal.typeId.isInteger = true) :
    signal.nroSignalBytes =
      (if signal.n < 1 then 1 else signal.n) * typeSize signal.typeId + 1 := by
  unfold Signal.nroSignalBytes
  cases htype : signal.typeId <;> simp_all [TypeId.isInteger]

theorem Signal.nroSignalBytes_boolean (h : signal.typeId = .boolean) :
    signal.nroSignalBytes = if 1 < signal.n then (signal.n + 7) / 8 + 1 else 1 := by
  unfold Signal.nroSignalBytes
  rw [h]
  by_cases hn : signal.n < 1
  · have hone : ¬ 1 < signal.n := by omega
    simp [hn, hone]
  · by_cases hone : 1 < signal.n
    · simp [hn, hone]
    · have heq : signal.n = 1 := by omega
      simp [heq]

theorem Signal.valueBytes_lt (signal : Signal) (hnumeric : signal.Numeric) :
    signal.valueBytes < signal.nroSignalBytes := by
  rcases hnumeric with hboolean | hinteger
  · rw [Signal.nroSignalBytes_boolean hboolean, Signal.valueBytes, if_pos hboolean]
    split <;> omega
  · have hpos : typeSize signal.typeId ≤
        (if signal.n < 1 then 1 else signal.n) * typeSize signal.typeId :=
      Nat.le_mul_of_pos_left _ (by split <;> omega)
    rw [Signal.nroSignalBytes_integer hinteger]
    unfold Signal.valueBytes
    rw [if_neg (TypeId.ne_boolean_of_isInteger hinteger)]
    omega

theorem LinkedBlock.setSignal_confined (block : LinkedBlock) (hnumeric : signal.Numeric) (v : SignalValue) :
    block.ConfinedWrite (block.setSignal p.osal signal v).1 signal := by
  by_cases hin : signal.InBlock block.mblk signal.valueBytes
  · rw [LinkedBlock.setSignal_eq hnumeric hin]
    have hlt := signal.valueBytes_lt hnumeric
    apply LinkedBlock.confinedWrite_storeBytes
    · simp only [Signal.storedBytes, List.length_cons, LittleEndian.ofInt_length]
      omega
    · simp only [Signal.storedBytes, List.length_cons, LittleEndian.ofInt_length]
      omega
  · rw [LinkedBlock.setSignal_outside hin]
    exact ⟨fun _ _ => rfl, Or.inr ⟨rfl, rfl⟩, rfl⟩


/-- What reading a signal returns is in its state byte and the bytes of its value. -/
theorem LinkedBlock.getSignal_eq (hnumeric : signal.Numeric)
    (hin : signal.InBlock block.mblk signal.valueBytes) {stateBits : UInt8} {v : ℤ}
    (hstate : block.mblk.buf signal.addr = stateBits)
    (hvalue : Segment.segment block.mblk.buf (signal.addr + 1) signal.valueBytes =
      LittleEndian.ofInt signal.valueBytes v) (noTbufCheck : Bool) :
    block.getSignal p signal noTbufCheck =
      ⟨if signal.typeId = .boolean then
          if block.returnedStateBits p stateBits noTbufCheck &&& p.booleanValue ≠ 0 then 1
          else 0
        else LittleEndian.toInt (signal.typeId.isSigned p.signedChar)
          (LittleEndian.ofInt (typeSize signal.typeId) v),
        block.returnedStateBits p stateBits noTbufCheck⟩ := by
  have hout : ¬ (signal.addr < 0 ∨
      block.mblk.nbytes ≤ signal.addr + (signal.valueBytes : ℕ)) := by
    unfold Signal.InBlock at hin
    omega
  unfold Signal.valueBytes at hout hvalue
  unfold LinkedBlock.getSignal
  dsimp only
  rw [if_neg hout, hstate]
  rcases hnumeric with hboolean | hinteger
  · rw [if_pos hboolean, if_pos hboolean]
  · have hne := TypeId.ne_boolean_of_isInteger hinteger
    rw [if_neg hne] at hvalue
    rw [if_neg hne, if_neg hne, if_neg hne, hvalue,
      SignalProcessor.tconvValue_byteOrderedCopy hinteger]

/-- Reading what `ioc_move` has just written. -/
theorem LinkedBlock.getSignal_setSignal (hnumeric : signal.Numeric)
    (hin : signal.InBlock block.mblk signal.valueBytes) (v : SignalValue)
    (noTbufCheck : Bool) :
    (block.setSignal p.osal signal v).1.getSignal p signal noTbufCheck =
      ⟨if signal.typeId = .boolean then (if v.value ≠ 0 then 1 else 0)
        else LittleEndian.toInt (signal.typeId.isSigned p.signedChar)
          (LittleEndian.ofInt (typeSize signal.typeId) v.value),
        block.returnedStateBits p
          (p.osal.setBooleanValue v.stateBits (decide (v.value ≠ 0))) noTbufCheck⟩ := by
  have hbuf : (block.setSignal p.osal signal v).1.mblk.buf =
      (block.storeBytes signal.addr (signal.storedBytes p v)).mblk.buf := by
    rw [LinkedBlock.setSignal_eq hnumeric hin, LinkedBlock.invalidate_mblk]
  have hstate : (block.setSignal p.osal signal v).1.mblk.buf signal.addr =
      p.osal.setBooleanValue v.stateBits (decide (v.value ≠ 0)) := by
    have hcell := block.storeBytes_apply signal.addr (signal.storedBytes p v) (k := 0)
      (by simp [Signal.storedBytes])
    rw [hbuf]
    simpa [Signal.storedBytes] using hcell
  have hvalue : Segment.segment (block.setSignal p.osal signal v).1.mblk.buf
      (signal.addr + 1) signal.valueBytes = LittleEndian.ofInt signal.valueBytes v.value := by
    have hsegment := block.segment_storeBytes signal.addr (signal.storedBytes p v)
    rw [← hbuf, Signal.storedBytes, List.length_cons, Segment.segment_succ,
      List.cons.injEq, LittleEndian.ofInt_length] at hsegment
    exact hsegment.2
  have hconfined := block.setSignal_confined (p := p) hnumeric v
  have hbit : (block.returnedStateBits p (p.osal.setBooleanValue v.stateBits
      (decide (v.value ≠ 0))) noTbufCheck &&& p.booleanValue ≠ 0) ↔ v.value ≠ 0 := by
    rw [LinkedBlock.returnedStateBits_booleanValue]
    by_cases hzero : v.value = 0 <;> simp [hzero, p.booleanValue_ne]
  rw [LinkedBlock.getSignal_eq hnumeric (hconfined.inBlock hin) hstate hvalue,
    hconfined.returnedStateBits_eq]
  simp only [hbit]

theorem LinkedBlock.getSignal_setSignal_inRange (hnumeric : signal.Numeric)
    (hin : signal.InBlock block.mblk signal.valueBytes) {v : SignalValue}
    (hrange : signal.typeId.InRange p.signedChar v.value) (noTbufCheck : Bool) :
    ((block.setSignal p.osal signal v).1.getSignal p signal noTbufCheck).value = v.value ∧
      block.SameStateBits p noTbufCheck v.stateBits
        ((block.setSignal p.osal signal v).1.getSignal p signal noTbufCheck).stateBits := by
  rw [LinkedBlock.getSignal_setSignal hnumeric hin]
  refine ⟨?_, block.sameStateBits_setBooleanValue _ _ _⟩
  rcases hnumeric with hboolean | hinteger
  · rw [hboolean, TypeId.InRange, if_pos rfl] at hrange
    rcases hrange with hzero | hone
    · simp [hboolean, hzero]
    · simp [hboolean, hone]
  · have hne := TypeId.ne_boolean_of_isInteger hinteger
    simp only [hne, if_false]
    exact toInt_ofInt_inRange hinteger hrange


/-! ## Decimal text -/

theorem TypeId.InRange.bounds {signedChar : Bool} {v : ℤ} (hnumeric : signal.Numeric)
    (h : signal.typeId.InRange signedChar v) :
    -9223372036854775808 ≤ v ∧ v < 9223372036854775808 := by
  have hcases : typeSize signal.typeId ≤ 4 ∨
      (typeSize signal.typeId = 8 ∧ signal.typeId.isSigned signedChar = true) := by
    rcases hnumeric with hboolean | hinteger
    · simp [hboolean, typeSize]
    · cases htype : signal.typeId <;>
        simp_all [TypeId.isInteger, TypeId.isSigned, typeSize]
  unfold TypeId.InRange at h
  split at h
  · omega
  · rcases hcases with hle | ⟨heq, hsigned⟩
    · have hpow : (256 : ℤ) ^ typeSize signal.typeId ≤ 256 ^ 4 :=
        pow_le_pow_right₀ (by norm_num) hle
      norm_num at hpow
      split at h <;> omega
    · rw [if_pos hsigned, heq] at h
      norm_num at h
      exact h

/-- The cast of the text's value to an `os_int` does not matter to smaller types. -/
theorem ofInt_osInt {size : ℕ} (hsize : size ≤ 4) (v : ℤ) :
    LittleEndian.ofInt size (osInt v) = LittleEndian.ofInt size v := by
  have hdvd : (256 : ℤ) ^ size ∣ 4294967296 := by
    have hpow : (256 : ℤ) ^ 4 = 4294967296 := by norm_num
    rw [← hpow]
    exact pow_dvd_pow 256 hsize
  have hmod : osInt v % 256 ^ size = v % 256 ^ size := by
    have hbmod : osInt v % 4294967296 = v % 4294967296 := Int.bmod_emod
    rw [← Int.emod_emod_of_dvd (osInt v) hdvd, hbmod, Int.emod_emod_of_dvd v hdvd]
  unfold LittleEndian.ofInt
  rw [hmod]

/-- What is read of a signal to which the text of a value has been written. -/
theorem LinkedBlock.getSignal_setText (hnumeric : signal.Numeric)
    (hin : signal.InBlock block.mblk signal.valueBytes) {v : ℤ}
    (hrange : signal.typeId.InRange p.signedChar v) (stateBits : UInt8) (noTbufCheck : Bool) :
    ((block.setText p signal (p.intToStr v) stateBits).1.getSignal p signal
        noTbufCheck).value = (if typeSize signal.typeId = 8 then osInt v else v) ∧
      block.SameStateBits p noTbufCheck (stateBits &&& 0x7F)
        ((block.setText p signal (p.intToStr v) stateBits).1.getSignal p signal
          noTbufCheck).stateBits := by
  obtain ⟨hlo, hhi⟩ := hrange.bounds hnumeric
  have hvalue : p.osal.strToValue signal.typeId (p.intToStr v) = osInt v := by
    have hfloat : signal.typeId ≠ .float := by
      rintro hfloat
      simp [Signal.Numeric, hfloat, TypeId.isInteger] at hnumeric
    simp only [SignalProcessor.osal, hfloat, if_false, p.strToInt_intToStr v hlo hhi]
  unfold LinkedBlock.setText
  rw [hvalue, LinkedBlock.getSignal_setSignal hnumeric hin]
  refine ⟨?_, block.sameStateBits_setBooleanValue _ _ _⟩
  rcases hnumeric with hboolean | hinteger
  · rw [hboolean, TypeId.InRange, if_pos rfl] at hrange
    rcases hrange with rfl | rfl <;> simp [hboolean, typeSize, osInt]
  · have hne := TypeId.ne_boolean_of_isInteger hinteger
    simp only [hne, if_false]
    by_cases height : typeSize signal.typeId = 8
    · rw [if_pos height]
      have hsigned : signal.typeId.isSigned p.signedChar = true := by
        cases htype : signal.typeId <;>
          simp_all [TypeId.isInteger, TypeId.isSigned, typeSize]
      have hbounds := osInt_bounds v
      apply toInt_ofInt_inRange hinteger
      unfold TypeId.InRange
      rw [if_neg hne, if_pos hsigned, height]
      norm_num
      omega
    · have hsize : typeSize signal.typeId ≤ 4 := by
        have hcases := TypeId.typeSize_of_isInteger hinteger
        omega
      rw [if_neg height, ofInt_osInt hsize]
      exact toInt_ofInt_inRange hinteger hrange

theorem noThreadSync_bit : ∀ {i : ℕ} (hi : i < 8),
    (0x80 : UInt8).toBitVec[i] = decide (i = 7) := by
  decide

theorem stateMask_bit : ∀ {i : ℕ} (hi : i < 8),
    (0x7F : UInt8).toBitVec[i] = !decide (i = 7) := by
  decide

theorem and_noThreadSync_eq_zero_iff {stateBits : UInt8} :
    stateBits &&& 0x80 = 0 ↔ stateBits.toBitVec[7] = false := by
  constructor
  · intro h
    have hbit := bits_of_and_eq_zero h (i := 7) (by decide)
    rwa [noThreadSync_bit (by decide), decide_eq_true rfl, Bool.and_true] at hbit
  · intro h
    apply eq_of_bits
    intro i hi
    rw [UInt8.toBitVec_and, BitVec.getElem_and, noThreadSync_bit hi]
    by_cases hi7 : i = 7
    · subst hi7
      simp [h]
    · simp [hi7]

theorem and_stateMask {stateBits : UInt8} (h : stateBits.toBitVec[7] = false) :
    stateBits &&& 0x7F = stateBits := by
  apply eq_of_bits
  intro i hi
  rw [UInt8.toBitVec_and, BitVec.getElem_and, stateMask_bit hi]
  by_cases hi7 : i = 7
  · subst hi7
    simp [h]
  · simp [hi7]

/-- The bit which is no state bit is neither set nor cleared on the way. -/
theorem LinkedBlock.returnedStateBits_bit (block : LinkedBlock) (stateBits : UInt8)
    (noTbufCheck : Bool) :
    (block.returnedStateBits p stateBits noTbufCheck ||| p.booleanValue).toBitVec[7] =
      stateBits.toBitVec[7] := by
  have hbool := and_noThreadSync_eq_zero_iff.mp p.booleanValue_noThreadSync
  have hcon := and_noThreadSync_eq_zero_iff.mp p.connected_noThreadSync
  unfold LinkedBlock.returnedStateBits
  split <;> simp [hbool, hcon]

/-- `ioc_set_ext` takes one of the bits for a flag. -/
theorem LinkedBlock.sameStateBits_mask_iff {stateBits read : UInt8} {noTbufCheck : Bool}
    (h : block.SameStateBits p noTbufCheck (stateBits &&& 0x7F) read) :
    block.SameStateBits p noTbufCheck stateBits read ↔ stateBits &&& 0x80 = 0 := by
  rw [and_noThreadSync_eq_zero_iff]
  constructor
  · intro hsame
    unfold LinkedBlock.SameStateBits at h hsame
    have hbit := congrArg (fun b : UInt8 => b.toBitVec[7]) (h.symm.trans hsame)
    simp only [LinkedBlock.returnedStateBits_bit] at hbit
    rw [← hbit, UInt8.toBitVec_and, BitVec.getElem_and, stateMask_bit (by decide)]
    simp
  · intro hbit
    rwa [and_stateMask hbit] at h

def LinkedBlock.TextComesBack (p : SignalProcessor) (block : LinkedBlock) (signal : Signal)
    (v : ℤ) (stateBits : UInt8) (noTbufCheck : Bool) : Prop :=
  ((block.setText p signal (p.intToStr v) stateBits).1.getText p signal noTbufCheck).1 =
      p.intToStr v ∧
    block.SameStateBits p noTbufCheck stateBits
      ((block.setText p signal (p.intToStr v) stateBits).1.getText p signal noTbufCheck).2

theorem LinkedBlock.textComesBack_iff (hnumeric : signal.Numeric)
    (hin : signal.InBlock block.mblk signal.valueBytes) {v : ℤ}
    (hrange : signal.typeId.InRange p.signedChar v) (stateBits : UInt8) (noTbufCheck : Bool) :
    block.TextComesBack p signal v stateBits noTbufCheck ↔
      (typeSize signal.typeId = 8 → -2147483648 ≤ v ∧ v < 2147483648) ∧
        stateBits &&& 0x80 = 0 := by
  obtain ⟨hlo, hhi⟩ := hrange.bounds hnumeric
  obtain ⟨hvalue, hstate⟩ := block.getSignal_setText hnumeric hin hrange stateBits noTbufCheck
  have hbounds := osInt_bounds v
  have htext : p.intToStr (if typeSize signal.typeId = 8 then osInt v else v) =
      p.intToStr v ↔
        (typeSize signal.typeId = 8 → -2147483648 ≤ v ∧ v < 2147483648) := by
    by_cases height : typeSize signal.typeId = 8
    · simp only [height, if_true, true_imp_iff]
      constructor
      · intro heq
        have hint := congrArg p.strToInt heq
        rw [p.strToInt_intToStr _ (by omega) (by omega),
          p.strToInt_intToStr v hlo hhi] at hint
        omega
      · intro hv
        rw [osInt_of_range hv.1 hv.2]
    · simp [height]
  unfold LinkedBlock.TextComesBack LinkedBlock.getText
  dsimp only
  rw [hvalue, htext, block.sameStateBits_mask_iff hstate]

/-! ## Several signals -/

def Signal.Disjoint (a b : Signal) : Prop :=
  a.addr + a.nroSignalBytes ≤ b.addr ∨ b.addr + b.nroSignalBytes ≤ a.addr

theorem LinkedBlock.ConfinedWrite.getSignal_eq {written : LinkedBlock} {other : Signal}
    (h : block.ConfinedWrite written other) (hnumeric : signal.Numeric)
    (hdisjoint : other.Disjoint signal) (noTbufCheck : Bool) :
    written.getSignal p signal noTbufCheck = block.getSignal p signal noTbufCheck := by
  have hlt := signal.valueBytes_lt hnumeric
  have hcell : ∀ i, signal.addr ≤ i → i < signal.addr + signal.nroSignalBytes →
      written.mblk.buf i = block.mblk.buf i := by
    intro i hlo hhi
    unfold Signal.Disjoint at hdisjoint
    exact h.unchanged i (by omega)
  have hstate := hcell signal.addr (le_refl _) (by omega)
  have hsegment : Segment.segment written.mblk.buf (signal.addr + 1) signal.valueBytes =
      Segment.segment block.mblk.buf (signal.addr + 1) signal.valueBytes :=
    Segment.segment_eq_iff.mpr fun i hlo hhi => hcell i (by omega) (by omega)
  unfold Signal.valueBytes at hsegment
  unfold LinkedBlock.getSignal
  dsimp only
  rw [h.nbytes_eq, hstate, h.returnedStateBits_eq, hsegment]

theorem LinkedBlock.moveSignal_eq (block : LinkedBlock) (hnumeric : signal.Numeric)
    (osal : SignalOsal) (v : SignalValue) :
    block.moveSignal osal signal v = block.setSignal osal signal v := by
  have hstr : signal.typeId ≠ .str := by
    rintro hstr
    simp [Signal.Numeric, hstr, TypeId.isInteger] at hnumeric
  unfold LinkedBlock.moveSignal
  rw [if_neg hstr]

theorem LinkedBlock.move_confined (signals : List (Signal × SignalValue))
    (hnumeric : ∀ s ∈ signals, s.1.Numeric) (block : LinkedBlock) (other : Signal)
    (hother : other.Numeric) (hdisjoint : ∀ s ∈ signals, s.1.Disjoint other)
    (noTbufCheck : Bool) :
    (block.move p.osal signals).1.getSignal p other noTbufCheck =
        block.getSignal p other noTbufCheck ∧
      (block.move p.osal signals).1.mblk.nbytes = block.mblk.nbytes := by
  induction signals generalizing block with
  | nil => exact ⟨rfl, rfl⟩
  | cons s signals ih =>
      have hs := hnumeric s (by simp)
      have hconfined := block.setSignal_confined (p := p) hs s.2
      have hrest := ih (fun x hx => hnumeric x (by simp [hx]))
        (block.setSignal p.osal s.1 s.2).1 fun x hx => hdisjoint x (by simp [hx])
      simp only [LinkedBlock.move, block.moveSignal_eq hs]
      exact ⟨hrest.1.trans (hconfined.getSignal_eq hother (hdisjoint s (by simp)) _),
        hrest.2.trans hconfined.nbytes_eq⟩

/-- Values written by one `ioc_move` to signals which do not overlap come back. -/
theorem LinkedBlock.move_getSignal (signals : List (Signal × SignalValue))
    (block : LinkedBlock) (noTbufCheck : Bool)
    (hsignals : ∀ s ∈ signals, s.1.Numeric ∧ s.1.InBlock block.mblk s.1.valueBytes ∧
      s.1.typeId.InRange p.signedChar s.2.value)
    (hdisjoint : signals.Pairwise fun a b => b.1.Disjoint a.1) :
    ∀ s ∈ signals,
      ((block.move p.osal signals).1.getSignal p s.1 noTbufCheck).value = s.2.value ∧
        block.SameStateBits p noTbufCheck s.2.stateBits
          ((block.move p.osal signals).1.getSignal p s.1 noTbufCheck).stateBits := by
  induction signals generalizing block with
  | nil => intro s hs; cases hs
  | cons first signals ih =>
      obtain ⟨hnumeric, hin, hrange⟩ := hsignals first (by simp)
      obtain ⟨hfirst, hrest⟩ := List.pairwise_cons.mp hdisjoint
      have hconfined := block.setSignal_confined (p := p) hnumeric first.2
      simp only [LinkedBlock.move, block.moveSignal_eq hnumeric]
      intro s hs
      rcases List.mem_cons.mp hs with rfl | hs
      · have hlater := LinkedBlock.move_confined (p := p) signals
          (fun x hx => (hsignals x (by simp [hx])).1) (block.setSignal p.osal s.1 s.2).1 s.1
          hnumeric hfirst noTbufCheck
        rw [hlater.1]
        exact LinkedBlock.getSignal_setSignal_inRange hnumeric hin hrange noTbufCheck
      · have hlater := ih (block.setSignal p.osal first.1 first.2).1 (fun x hx => by
            obtain ⟨hx1, hx2, hx3⟩ := hsignals x (by simp [hx])
            exact ⟨hx1, hconfined.inBlock hx2, hx3⟩) hrest s hs
        unfold LinkedBlock.SameStateBits at hlater ⊢
        rwa [hconfined.returnedStateBits_eq] at hlater

end Iocom
