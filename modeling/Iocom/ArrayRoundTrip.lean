import Iocom.SignalRoundTrip

/-!
# Arrays are read back

`ioc_move_array` writes a range of an array signal, clipped to the elements
which the signal has, and reads it.  Booleans are packed as bits; a single one
is the boolean value of the state byte.
-/

namespace Iocom

variable {p : SignalProcessor} {block : LinkedBlock} {signal : Signal}

/-! ## Packed booleans -/

theorem packByte_spec (bits : List UInt8) (hlen : bits.length ≤ 8) :
    (packByte bits).toNat < 2 ^ bits.length ∧
      ∀ j (hj : j < bits.length), (packByte bits).toNat.testBit j = decide (bits[j] ≠ 0) := by
  induction bits with
  | nil => exact ⟨by decide, fun j hj => absurd hj (Nat.not_lt_zero j)⟩
  | cons b bits ih =>
      obtain ⟨hlt, hbits⟩ := ih (by simp at hlen; omega)
      have hpow : 2 ^ bits.length ≤ 2 ^ 7 :=
        Nat.pow_le_pow_right (by decide) (by simp at hlen; omega)
      have hnat : (packByte (b :: bits)).toNat =
          2 * (packByte bits).toNat + (decide (b ≠ 0)).toNat := by
        have hbit : (if b ≠ 0 then 1 else 0 : UInt8).toNat = (decide (b ≠ 0)).toNat := by
          by_cases hb : b = 0 <;> simp [hb]
        have hle : (decide (b ≠ 0)).toNat ≤ 1 := Bool.toNat_le _
        have hfold : packByte (b :: bits) = packByte bits * 2 + if b ≠ 0 then 1 else 0 := rfl
        rw [hfold, UInt8.toNat_add, UInt8.toNat_mul, hbit]
        have htwo : (2 : UInt8).toNat = 2 := rfl
        rw [htwo]
        omega
      refine ⟨?_, fun j hj => ?_⟩
      · have hle : (decide (b ≠ 0)).toNat ≤ 1 := Bool.toNat_le _
        rw [hnat, List.length_cons, pow_succ]
        omega
      · cases j with
        | zero =>
            rw [hnat, Nat.testBit_zero, List.getElem_cons_zero]
            by_cases hb : b = 0 <;> simp [hb, Nat.add_mod]
        | succ j =>
            have hhalf : (2 * (packByte bits).toNat + (decide (b ≠ 0)).toNat) / 2 =
                (packByte bits).toNat := by
              have hle : (decide (b ≠ 0)).toNat ≤ 1 := Bool.toNat_le _
              omega
            rw [hnat, Nat.testBit_succ, hhalf, List.getElem_cons_succ]
            exact hbits j (by simpa using hj)

/-- The values of `os_boolean`. -/
def IsBooleans (array : List UInt8) : Prop := ∀ b ∈ array, b = 0 ∨ b = 1

@[simp] theorem unpackBooleans_length (mem : Mem) (first : ℤ) (count : ℕ) :
    (unpackBooleans mem first count).length = count := by
  simp [unpackBooleans]

theorem unpackBooleans_getElem {mem : Mem} {first : ℤ} {count i : ℕ}
    (hi : i < (unpackBooleans mem first count).length) :
    (unpackBooleans mem first count)[i] =
      if (mem (first + (i / 8 : ℕ))).toNat.testBit (i % 8) then 1 else 0 := by
  simp [unpackBooleans]

theorem unpackBooleans_packBooleans {mem : Mem} {first : ℤ} {array : List UInt8}
    (harray : IsBooleans array)
    (hmem : Segment.segment mem first (packBooleans array).length = packBooleans array) :
    unpackBooleans mem first array.length = array := by
  refine List.ext_getElem (by simp) fun i hi hi' => ?_
  have hbyte : i / 8 < (packBooleans array).length := by
    rw [packBooleans_length]
    omega
  have hcell : mem (first + (i / 8 : ℕ)) = packByte ((array.drop (8 * (i / 8))).take 8) := by
    have hget := Segment.segment_getElem? mem first hbyte
    rw [hmem, List.getElem?_eq_getElem hbyte, Option.some.injEq] at hget
    rw [← hget]
    simp [packBooleans]
  have hbits : i % 8 < ((array.drop (8 * (i / 8))).take 8).length := by
    simp
    omega
  have hbit := (packByte_spec ((array.drop (8 * (i / 8))).take 8) (by simp)).2 (i % 8) hbits
  have hindex : ((array.drop (8 * (i / 8))).take 8)[i % 8] = array[i] := by
    rw [List.getElem_take, List.getElem_drop]
    congr 1
    omega
  rw [hindex] at hbit
  rw [unpackBooleans_getElem, hcell, hbit]
  rcases harray array[i] (List.getElem_mem hi') with hzero | hone
  · simp [hzero]
  · simp [hone]

/-! ## The range of a call -/

def Signal.clipped (signal : Signal) (offset n : ℕ) : ℤ :=
  if signal.n < n + offset then (signal.n : ℤ) - offset else n

def Signal.rangeBytes (signal : Signal) (offset n : ℕ) : ℕ :=
  (offset + if signal.typeId = .boolean then (if n = 1 then 0 else (n + 7) / 8) else n) *
    typeSize signal.typeId

theorem Signal.clipped_le (signal : Signal) (offset n : ℕ) :
    signal.clipped offset n ≤ n ∧ signal.clipped offset n ≤ signal.n - offset := by
  unfold Signal.clipped
  split <;> omega


theorem Signal.not_outside {mblk : MemoryBlock} {offset n : ℕ}
    (hin : signal.InBlock mblk (signal.rangeBytes offset n)) :
    ¬ (signal.addr < 0 ∨ mblk.nbytes ≤ signal.addr +
      (offset + ((if signal.typeId = .boolean then (if n = 1 then 0 else (n + 7) / 8)
        else n : ℕ) : ℤ)) * (typeSize signal.typeId : ℤ)) := by
  unfold Signal.InBlock Signal.rangeBytes at hin
  push_cast at hin ⊢
  omega

theorem LinkedBlock.moveArray_outside (osal : SignalOsal) {offset n : ℕ}
    (hout : ¬ signal.InBlock block.mblk (signal.rangeBytes offset n))
    (array : List UInt8) (stateBits : UInt8) :
    block.moveArray osal signal offset array n stateBits = (block, 0) := by
  have hcheck : signal.addr < 0 ∨ block.mblk.nbytes ≤ signal.addr +
      (offset + ((if signal.typeId = .boolean then (if n = 1 then 0 else (n + 7) / 8)
        else n : ℕ) : ℤ)) * (typeSize signal.typeId : ℤ) := by
    unfold Signal.InBlock Signal.rangeBytes at hout
    push_cast at hout ⊢
    omega
  unfold LinkedBlock.moveArray
  exact if_pos hcheck

/-! ## Booleans -/

def Signal.packed (signal : Signal) (offset n : ℕ) (array : List UInt8) : List UInt8 :=
  if 1 < signal.clipped offset n then
    packBooleans (array.take (signal.clipped offset n).toNat)
  else []

theorem LinkedBlock.moveArray_boolean (osal : SignalOsal) (hboolean : signal.typeId = .boolean)
    {offset n : ℕ} (hin : signal.InBlock block.mblk (signal.rangeBytes offset n))
    (array : List UInt8) (stateBits : UInt8) :
    (block.moveArray osal signal offset array n stateBits).1 =
      (block.storeBytes signal.addr
        (osal.setBooleanValue stateBits (decide (array.headD 0 ≠ 0)) ::
          signal.packed offset n array)).invalidate signal.addr
        (signal.addr +
          if 1 < signal.clipped offset n then (signal.clipped offset n + 7) / 8 else 0) := by
  have hout := Signal.not_outside hin
  unfold LinkedBlock.moveArray Signal.packed Signal.clipped
  dsimp only
  rw [if_neg hout, if_pos hboolean]

/-- The bits of a clipped array have room behind the state byte. -/
theorem Signal.packed_length (signal : Signal) (offset : ℕ) {n : ℕ} {array : List UInt8}
    (harray : array.length = n) :
    ((signal.packed offset n array).length : ℤ) =
      if 1 < signal.clipped offset n then (signal.clipped offset n + 7) / 8 else 0 := by
  have hle := signal.clipped_le offset n
  unfold Signal.packed
  split
  · rw [packBooleans_length, List.length_take]
    omega
  · rfl

theorem LinkedBlock.moveArray_boolean_confined (osal : SignalOsal)
    (hboolean : signal.typeId = .boolean) (offset : ℕ) {n : ℕ} {array : List UInt8}
    (harray : array.length = n) (stateBits : UInt8) :
    block.ConfinedWrite (block.moveArray osal signal offset array n stateBits).1 signal := by
  by_cases hin : signal.InBlock block.mblk (signal.rangeBytes offset n)
  · have hle := signal.clipped_le offset n
    have hlen := signal.packed_length offset harray
    rw [LinkedBlock.moveArray_boolean osal hboolean hin, ← hlen]
    apply LinkedBlock.confinedWrite_storeBytes
    · rw [Signal.nroSignalBytes_boolean hboolean, List.length_cons]
      split at hlen <;> split <;> omega
    · rw [List.length_cons]
      omega
  · rw [LinkedBlock.moveArray_outside osal hin]
    exact ⟨fun _ _ => rfl, Or.inr ⟨rfl, rfl⟩, rfl⟩

theorem LinkedBlock.getArray_boolean (hboolean : signal.typeId = .boolean) {offset n : ℕ}
    (hin : signal.InBlock block.mblk (signal.rangeBytes offset n)) (old : List UInt8)
    (noTbufCheck : Bool) :
    block.getArray p signal offset old n noTbufCheck =
      if 1 < signal.clipped offset n then
        (unpackBooleans block.mblk.buf (signal.addr + 1) (signal.clipped offset n).toNat ++
            old.drop (signal.clipped offset n).toNat,
          block.returnedStateBits p (block.mblk.buf signal.addr) noTbufCheck)
      else
        ((if block.returnedStateBits p (block.mblk.buf signal.addr) noTbufCheck &&&
              p.booleanValue ≠ 0 then 1 else 0) :: old.tail,
          block.returnedStateBits p (block.mblk.buf signal.addr) noTbufCheck &&&
            p.booleanValue) := by
  have hout := Signal.not_outside hin
  unfold LinkedBlock.getArray Signal.clipped
  dsimp only
  rw [if_neg hout, if_pos hboolean]


/-! ## Integers -/

/-- The state byte and the clipped range of an array, stored one after the other. -/
def LinkedBlock.storeArray (block : LinkedBlock) (signal : Signal) (offset n : ℕ)
    (array : List UInt8) (stateBits : UInt8) : LinkedBlock :=
  (block.storeBytes signal.addr [stateBits]).storeBytes
    (signal.addr + offset * typeSize signal.typeId + 1)
    (array.take (signal.clipped offset n * typeSize signal.typeId).toNat)

theorem LinkedBlock.moveArray_integer (osal : SignalOsal)
    (hinteger : signal.typeId.isInteger = true) {offset n : ℕ}
    (hin : signal.InBlock block.mblk (signal.rangeBytes offset n)) (array : List UInt8)
    (stateBits : UInt8) :
    (block.moveArray osal signal offset array n stateBits).1 =
      if block.mblk.buf signal.addr ≠ stateBits then
        (block.storeArray signal offset n array stateBits).invalidate signal.addr
          (signal.addr + signal.clipped offset n * typeSize signal.typeId +
            offset * typeSize signal.typeId)
      else if signal.clipped offset n * typeSize signal.typeId ≠ 0 then
        (block.storeArray signal offset n array stateBits).invalidate
          (signal.addr + offset * typeSize signal.typeId + 1)
          (signal.addr + offset * typeSize signal.typeId + 1 +
            signal.clipped offset n * typeSize signal.typeId - 1)
      else block.storeArray signal offset n array stateBits := by
  have hout := Signal.not_outside hin
  have hne := TypeId.ne_boolean_of_isInteger hinteger
  unfold LinkedBlock.moveArray LinkedBlock.storeArray Signal.clipped
  dsimp only
  rw [if_neg hout, if_neg hne, apply_ite Prod.fst, apply_ite Prod.fst]

theorem Signal.clipped_bytes (signal : Signal) (offset n : ℕ) :
    (signal.clipped offset n * typeSize signal.typeId).toNat =
      (signal.clipped offset n).toNat * typeSize signal.typeId := by
  by_cases h : 0 ≤ signal.clipped offset n
  · obtain ⟨m, hm⟩ := Int.eq_ofNat_of_zero_le h
    rw [hm]
    norm_cast
  · have hneg : signal.clipped offset n * typeSize signal.typeId ≤ 0 :=
      Int.mul_nonpos_of_nonpos_of_nonneg (by omega) (by omega)
    have hzero : (signal.clipped offset n).toNat = 0 := by omega
    rw [hzero, Nat.zero_mul]
    omega

section

variable {offset n : ℕ} {array : List UInt8} {stateBits : UInt8}

theorem LinkedBlock.storeArray_state :
    (block.storeArray signal offset n array stateBits).mblk.buf signal.addr = stateBits := by
  have hfirst := block.storeBytes_apply signal.addr [stateBits] (k := 0) (by simp)
  have hlt : signal.addr < signal.addr + offset * typeSize signal.typeId + 1 := by
    have hnonneg : (0 : ℤ) ≤ offset * typeSize signal.typeId := by positivity
    omega
  have hsecond := Segment.combineAt_of_outside (fun (_ new : UInt8) => new)
    (block.storeBytes signal.addr [stateBits]).mblk.buf
    (signal.addr + offset * typeSize signal.typeId + 1)
    (array.take (signal.clipped offset n * typeSize signal.typeId).toNat)
    (i := signal.addr) (Or.inl hlt)
  exact hsecond.trans (by simpa using hfirst)

theorem LinkedBlock.storeArray_of_outside {i : ℤ} (haddr : i ≠ signal.addr)
    (hout : i < signal.addr + offset * typeSize signal.typeId + 1 ∨
      signal.addr + offset * typeSize signal.typeId + 1 +
        (signal.clipped offset n).toNat * typeSize signal.typeId ≤ i) :
    (block.storeArray signal offset n array stateBits).mblk.buf i = block.mblk.buf i := by
  have hfirst := Segment.combineAt_of_outside (fun (_ new : UInt8) => new) block.mblk.buf
    signal.addr [stateBits] (i := i) (by simp; omega)
  have hlen : (array.take (signal.clipped offset n * typeSize signal.typeId).toNat).length ≤
      (signal.clipped offset n).toNat * typeSize signal.typeId := by
    rw [Signal.clipped_bytes, List.length_take]
    exact Nat.min_le_left _ _
  have hsecond := Segment.combineAt_of_outside (fun (_ new : UInt8) => new)
    (block.storeBytes signal.addr [stateBits]).mblk.buf
    (signal.addr + offset * typeSize signal.typeId + 1)
    (array.take (signal.clipped offset n * typeSize signal.typeId).toNat) (i := i)
    (by zify at hlen; omega)
  exact hsecond.trans hfirst

theorem LinkedBlock.storeArray_eq_of_state (hstate : block.mblk.buf signal.addr = stateBits)
    {i : ℤ} (hi : (block.storeArray signal offset n array stateBits).mblk.buf i ≠
      block.mblk.buf i) :
    signal.addr + offset * typeSize signal.typeId + 1 ≤ i ∧
      i < signal.addr + offset * typeSize signal.typeId + 1 +
        (signal.clipped offset n).toNat * typeSize signal.typeId := by
  have hne : i ≠ signal.addr := by
    rintro rfl
    exact hi (LinkedBlock.storeArray_state.trans hstate.symm)
  by_contra hout
  exact hi (LinkedBlock.storeArray_of_outside hne (by omega))

/-- The range of a call ends where the signal does, or before. -/
theorem Signal.range_le (signal : Signal) (hinteger : signal.typeId.isInteger = true)
    (offset n : ℕ) :
    (signal.clipped offset n).toNat = 0 ∨
      offset * typeSize signal.typeId +
        (signal.clipped offset n).toNat * typeSize signal.typeId + 1 ≤
          signal.nroSignalBytes := by
  by_cases hzero : (signal.clipped offset n).toNat = 0
  · exact Or.inl hzero
  · right
    have hle := signal.clipped_le offset n
    have helements : offset + (signal.clipped offset n).toNat ≤
        if signal.n < 1 then 1 else signal.n := by
      split <;> omega
    have hmul := Nat.mul_le_mul_right (typeSize signal.typeId) helements
    rw [Nat.add_mul] at hmul
    rw [Signal.nroSignalBytes_integer hinteger]
    omega

theorem LinkedBlock.moveArray_integer_confined (osal : SignalOsal)
    (hinteger : signal.typeId.isInteger = true) (offset n : ℕ) (array : List UInt8)
    (stateBits : UInt8) :
    block.ConfinedWrite (block.moveArray osal signal offset array n stateBits).1 signal := by
  by_cases hin : signal.InBlock block.mblk (signal.rangeBytes offset n)
  · have hrange := signal.range_le hinteger offset n
    have hnonneg : (0 : ℤ) ≤ offset * typeSize signal.typeId := by positivity
    have hbytes := signal.clipped_bytes offset n
    have hpos := signal.nroSignalBytes_integer hinteger
    have houtside : ∀ i, i < signal.addr ∨ signal.addr + signal.nroSignalBytes ≤ i →
        (block.storeArray signal offset n array stateBits).mblk.buf i = block.mblk.buf i := by
      intro i hi
      refine LinkedBlock.storeArray_of_outside (by omega) ?_
      rcases hrange with hzero | hle
      · rw [hzero]
        omega
      · zify at hle
        omega
    rw [LinkedBlock.moveArray_integer osal hinteger hin]
    by_cases hstate : block.mblk.buf signal.addr = stateBits
    · have hchanged := fun i => @LinkedBlock.storeArray_eq_of_state block signal offset n array
        stateBits hstate i
      rw [if_neg (not_not.mpr hstate)]
      split
      · refine ⟨houtside, Or.inl ⟨_, _, rfl, fun i hi => ?_⟩, rfl⟩
        have hrange := hchanged i hi
        zify at hbytes
        omega
      · refine ⟨houtside, Or.inr ⟨rfl, funext fun i => ?_⟩, rfl⟩
        by_contra hi
        have hrange := hchanged i hi
        zify at hbytes
        omega
    · rw [if_pos hstate]
      refine ⟨houtside, Or.inl ⟨_, _, rfl, fun i hi => ?_⟩, rfl⟩
      have hend : 0 ≤ (signal.clipped offset n + offset) * (typeSize signal.typeId : ℤ) :=
        mul_nonneg (by unfold Signal.clipped; split <;> omega) (by positivity)
      rw [Int.add_mul] at hend
      by_cases haddr : i = signal.addr
      · omega
      · by_contra hout
        refine hi (LinkedBlock.storeArray_of_outside haddr ?_)
        zify at hbytes
        omega
  · rw [LinkedBlock.moveArray_outside osal hin]
    exact ⟨fun _ _ => rfl, Or.inr ⟨rfl, rfl⟩, rfl⟩

end


/-! ## Comes back -/

/-- The elements an array signal has; a single variable has none or one. -/
def Signal.elements (signal : Signal) : ℕ := if signal.n < 1 then 1 else signal.n

/-- The bytes of an array of `n` elements. -/
def Signal.IsArray (signal : Signal) (array : List UInt8) (n : ℕ) : Prop :=
  array.length = n * typeSize signal.typeId ∧
    (signal.typeId = .boolean → IsBooleans array)

/-- An array which is written to a signal and read again: the elements which the signal has
come back, and so do the state bits. -/
def LinkedBlock.ArrayComesBack (p : SignalProcessor) (block : LinkedBlock) (signal : Signal)
    (offset : ℕ) (array : List UInt8) (n : ℕ) (stateBits : UInt8) (noTbufCheck : Bool) :
    Prop :=
  ∀ old : List UInt8, old.length = array.length →
    let written :=
      (block.moveArray p.osal signal offset (signal.orderedArray p array) n stateBits).1
    let read := written.getArray p signal offset old n noTbufCheck
    (∀ k < array.length, k / typeSize signal.typeId + offset < signal.elements →
      read.1[k]? = array[k]?) ∧
    block.SameStateBits p noTbufCheck stateBits read.2

theorem LinkedBlock.getArray_moveArray_boolean (hboolean : signal.typeId = .boolean)
    {offset n : ℕ} (hin : signal.InBlock block.mblk (signal.rangeBytes offset n))
    {array : List UInt8} (hlen : array.length = n) (hbooleans : IsBooleans array)
    (stateBits : UInt8) (old : List UInt8) (noTbufCheck : Bool) :
    (block.moveArray p.osal signal offset array n stateBits).1.getArray p signal offset old n
        noTbufCheck =
      if 1 < signal.clipped offset n then
        (array.take (signal.clipped offset n).toNat ++
            old.drop (signal.clipped offset n).toNat,
          block.returnedStateBits p
            (p.osal.setBooleanValue stateBits (decide (array.headD 0 ≠ 0))) noTbufCheck)
      else
        ((if array.headD 0 ≠ 0 then 1 else 0) :: old.tail,
          block.returnedStateBits p
            (p.osal.setBooleanValue stateBits (decide (array.headD 0 ≠ 0))) noTbufCheck &&&
              p.booleanValue) := by
  have hconfined : block.ConfinedWrite _ signal :=
    LinkedBlock.moveArray_boolean_confined p.osal hboolean offset hlen stateBits
  have hstored := LinkedBlock.moveArray_boolean p.osal hboolean hin array stateBits
  have hle := signal.clipped_le offset n
  generalize (block.moveArray p.osal signal offset array n stateBits).1 = written
    at hconfined hstored
  have hsegment := block.segment_storeBytes signal.addr
    (p.osal.setBooleanValue stateBits (decide (array.headD 0 ≠ 0)) ::
      signal.packed offset n array)
  rw [List.length_cons, Segment.segment_succ, List.cons.injEq] at hsegment
  have hbuf := congrArg (fun b => b.mblk.buf) hstored
  simp only [LinkedBlock.invalidate_mblk] at hbuf
  rw [← hbuf] at hsegment
  obtain ⟨hstate, hpacked⟩ := hsegment
  have hbit := block.returnedStateBits_booleanValue (p := p) stateBits
    (decide (array.headD 0 ≠ 0)) noTbufCheck
  rw [LinkedBlock.getArray_boolean hboolean (hconfined.inBlock hin), hstate,
    hconfined.returnedStateBits_eq]
  by_cases hone : 1 < signal.clipped offset n
  · have htake : (array.take (signal.clipped offset n).toNat).length =
        (signal.clipped offset n).toNat := by
      rw [List.length_take]
      omega
    rw [Signal.packed, if_pos hone] at hpacked
    have hback := unpackBooleans_packBooleans
      (fun b hb => hbooleans b (List.mem_of_mem_take hb)) hpacked
    rw [htake] at hback
    rw [if_pos hone, if_pos hone, hback]
  · rw [if_neg hone, if_neg hone]
    by_cases hzero : array.headD 0 = 0
    · simp only [hzero, ne_eq, not_true_eq_false, decide_false, Bool.false_eq_true,
        if_false] at hbit ⊢
      simp [hbit]
    · simp only [hzero, ne_eq, not_false_eq_true, decide_true, if_true] at hbit ⊢
      simp [hbit, p.booleanValue_ne]

theorem LinkedBlock.arrayComesBack_boolean_iff (hboolean : signal.typeId = .boolean)
    {offset n : ℕ} (hn : 0 < n) (hin : signal.InBlock block.mblk (signal.rangeBytes offset n))
    {array : List UInt8} (harray : signal.IsArray array n) (stateBits : UInt8)
    (noTbufCheck : Bool) :
    block.ArrayComesBack p signal offset array n stateBits noTbufCheck ↔
      1 < signal.clipped offset n ∨
        block.returnedStateBits p stateBits noTbufCheck ||| p.booleanValue =
          p.booleanValue := by
  have hsize : typeSize signal.typeId = 1 := by rw [hboolean]; rfl
  have hlen : array.length = n := by rw [harray.1, hsize, Nat.mul_one]
  have hbooleans := harray.2 hboolean
  have hordered : signal.orderedArray p array = array := if_pos hboolean
  have hclipped : signal.clipped offset n =
      if signal.n < n + offset then (signal.n : ℤ) - offset else n := rfl
  unfold LinkedBlock.ArrayComesBack
  simp only [hordered, hsize, Nat.div_one,
    LinkedBlock.getArray_moveArray_boolean hboolean hin hlen hbooleans]
  by_cases hone : 1 < signal.clipped offset n
  · simp only [hone, if_true, true_or, iff_true]
    intro old _
    refine ⟨fun k hk hinside => ?_, block.sameStateBits_setBooleanValue _ _ _⟩
    have hlt : k < (signal.clipped offset n).toNat := by
      unfold Signal.elements at hinside
      rw [hclipped] at hone ⊢
      split at hone <;> split at hinside <;> split <;> omega
    rw [List.getElem?_append_left (by rw [List.length_take]; omega),
      List.getElem?_take_of_lt hlt]
  · have hsame : ∀ stateBits' : UInt8,
        block.SameStateBits p noTbufCheck stateBits (stateBits' &&& p.booleanValue) ↔
          block.returnedStateBits p stateBits noTbufCheck ||| p.booleanValue =
            p.booleanValue := by
      intro stateBits'
      have hmask : stateBits' &&& p.booleanValue ||| p.booleanValue = p.booleanValue := by
        apply eq_of_bits
        intro i hi
        simp
      unfold LinkedBlock.SameStateBits
      rw [hmask]
      exact eq_comm
    simp only [hone, if_false, false_or, hsame]
    constructor
    · intro h
      exact (h array rfl).2
    · intro hstate old hold
      refine ⟨fun k hk hinside => ?_, hstate⟩
      have hzero : k = 0 := by
        unfold Signal.elements at hinside
        rw [hclipped] at hone
        split at hone <;> split at hinside <;> omega
      obtain ⟨b, tail, rfl⟩ := List.exists_cons_of_length_pos (hlen ▸ hn)
      rcases hbooleans b (by simp) with rfl | rfl <;> simp [hzero]


theorem copiedCount_mul (smallEndian : Bool) (m : ℕ) {typeSz : ℕ} (hsize : 0 < typeSz) :
    copiedCount smallEndian (m * typeSz) typeSz = m * typeSz := by
  unfold copiedCount
  rw [Nat.mul_div_cancel _ hsize, Nat.mul_comm typeSz m, ite_self]

/-- The first elements of a copy are copies of the first elements. -/
theorem take_byteOrderedCopy {smallEndian : Bool} {array : List UInt8} {m n typeSz : ℕ}
    (hsize : 0 < typeSz) (hm : m ≤ n) (hlen : array.length = n * typeSz) :
    (byteOrderedCopy smallEndian array (n * typeSz) typeSz).take (m * typeSz) =
      byteOrderedCopy smallEndian array (m * typeSz) typeSz := by
  unfold byteOrderedCopy
  rw [Nat.mul_div_cancel _ hsize, Nat.mul_div_cancel _ hsize]
  split
  · rw [Nat.mul_comm m typeSz]
    exact ReversedGroups.take_reverseGroups hm (by rw [hlen, Nat.mul_comm])
  · rw [List.take_take, Nat.min_eq_left (Nat.mul_le_mul_right typeSz hm)]

theorem LinkedBlock.getArray_integer (hinteger : signal.typeId.isInteger = true)
    {offset n : ℕ} (hin : signal.InBlock block.mblk (signal.rangeBytes offset n))
    (old : List UInt8) (noTbufCheck : Bool) :
    block.getArray p signal offset old n noTbufCheck =
      (byteOrderedCopy p.smallEndian
          (Segment.segment block.mblk.buf (signal.addr + 1 + offset * typeSize signal.typeId)
            ((signal.clipped offset n).toNat * typeSize signal.typeId))
          ((signal.clipped offset n).toNat * typeSize signal.typeId)
          (typeSize signal.typeId) ++
        old.drop ((signal.clipped offset n).toNat * typeSize signal.typeId),
        block.returnedStateBits p (block.mblk.buf signal.addr) noTbufCheck) := by
  have hout := Signal.not_outside hin
  have hne := TypeId.ne_boolean_of_isInteger hinteger
  rw [← Signal.clipped_bytes]
  unfold LinkedBlock.getArray Signal.clipped
  dsimp only
  rw [if_neg hout, if_neg hne]

theorem LinkedBlock.moveArray_integer_buf (osal : SignalOsal)
    (hinteger : signal.typeId.isInteger = true) {offset n : ℕ}
    (hin : signal.InBlock block.mblk (signal.rangeBytes offset n)) (array : List UInt8)
    (stateBits : UInt8) :
    (block.moveArray osal signal offset array n stateBits).1.mblk =
      (block.storeArray signal offset n array stateBits).mblk := by
  rw [LinkedBlock.moveArray_integer osal hinteger hin]
  split
  · rfl
  · split <;> rfl

/-- The elements which the signal has from the offset on come back, the others are left. -/
theorem LinkedBlock.getArray_moveArray_integer (hinteger : signal.typeId.isInteger = true)
    {offset n : ℕ} (hin : signal.InBlock block.mblk (signal.rangeBytes offset n))
    {array : List UInt8} (hlen : array.length = n * typeSize signal.typeId)
    (stateBits : UInt8) (old : List UInt8) (noTbufCheck : Bool) :
    (block.moveArray p.osal signal offset (signal.orderedArray p array) n
        stateBits).1.getArray p signal offset old n noTbufCheck =
      (array.take ((signal.clipped offset n).toNat * typeSize signal.typeId) ++
          old.drop ((signal.clipped offset n).toNat * typeSize signal.typeId),
        block.returnedStateBits p stateBits noTbufCheck) := by
  have hsize : 0 < typeSize signal.typeId := by
    have hcases := TypeId.typeSize_of_isInteger hinteger
    omega
  have hm : (signal.clipped offset n).toNat ≤ n := by
    have hle := signal.clipped_le offset n
    omega
  have hbytes : (signal.clipped offset n).toNat * typeSize signal.typeId ≤
      n * typeSize signal.typeId := Nat.mul_le_mul_right _ hm
  have hordered : signal.orderedArray p array =
      byteOrderedCopy p.smallEndian array (n * typeSize signal.typeId)
        (typeSize signal.typeId) := by
    unfold Signal.orderedArray
    rw [if_neg (TypeId.ne_boolean_of_isInteger hinteger), hlen]
  have htake : (signal.orderedArray p array).take
      ((signal.clipped offset n).toNat * typeSize signal.typeId) =
      byteOrderedCopy p.smallEndian array
        ((signal.clipped offset n).toNat * typeSize signal.typeId)
        (typeSize signal.typeId) := by
    rw [hordered]
    exact take_byteOrderedCopy hsize hm hlen
  have hstored := LinkedBlock.moveArray_integer_buf p.osal hinteger hin
    (signal.orderedArray p array) stateBits
  have hconfined : block.ConfinedWrite _ signal :=
    LinkedBlock.moveArray_integer_confined p.osal hinteger offset n
      (signal.orderedArray p array) stateBits
  have hsegment := (block.storeBytes signal.addr [stateBits]).segment_storeBytes
    (signal.addr + offset * typeSize signal.typeId + 1)
    ((signal.orderedArray p array).take
      (signal.clipped offset n * typeSize signal.typeId).toNat)
  have hcopied := copiedCount_mul p.smallEndian (signal.clipped offset n).toNat hsize
  rw [Signal.clipped_bytes, htake, byteOrderedCopy_length (by omega), hcopied] at hsegment
  have hstate := @LinkedBlock.storeArray_state block signal offset n
    (signal.orderedArray p array) stateBits
  have hbuf : ((block.storeBytes signal.addr [stateBits]).storeBytes
      (signal.addr + offset * typeSize signal.typeId + 1)
      (byteOrderedCopy p.smallEndian array
        ((signal.clipped offset n).toNat * typeSize signal.typeId)
        (typeSize signal.typeId))).mblk.buf =
      (block.storeArray signal offset n (signal.orderedArray p array) stateBits).mblk.buf := by
    unfold LinkedBlock.storeArray
    rw [Signal.clipped_bytes, htake]
  rw [hbuf] at hsegment
  have hstart : signal.addr + 1 + offset * typeSize signal.typeId =
      signal.addr + offset * typeSize signal.typeId + 1 := by ring
  rw [LinkedBlock.getArray_integer hinteger (hconfined.inBlock hin), hstored, hstate,
    hconfined.returnedStateBits_eq, hstart, hsegment,
    byteOrderedCopy_byteOrderedCopy (by omega) hcopied]

theorem LinkedBlock.arrayComesBack_integer_iff (hinteger : signal.typeId.isInteger = true)
    {offset n : ℕ} (hn : 0 < n) (hin : signal.InBlock block.mblk (signal.rangeBytes offset n))
    {array : List UInt8} (harray : signal.IsArray array n) (stateBits : UInt8)
    (noTbufCheck : Bool) :
    block.ArrayComesBack p signal offset array n stateBits noTbufCheck ↔
      ¬ (signal.n = 0 ∧ offset = 0) := by
  have hsize : 0 < typeSize signal.typeId := by
    have hcases := TypeId.typeSize_of_isInteger hinteger
    omega
  have hlen := harray.1
  have hpos : 0 < array.length := by
    rw [hlen]
    exact Nat.mul_pos hn hsize
  unfold LinkedBlock.ArrayComesBack
  simp only [LinkedBlock.getArray_moveArray_integer hinteger hin hlen]
  constructor
  · rintro h ⟨hzero, rfl⟩
    -- nothing is copied, so that the caller's buffer is left as it was
    have hnone : (signal.clipped 0 n).toNat = 0 := by
      have hle := signal.clipped_le 0 n
      omega
    have hback := (h (List.replicate array.length (array.headD 0 + 1)) (by simp)).1 0 hpos
      (by simp [Signal.elements, hzero])
    obtain ⟨b, tail, rfl⟩ := List.exists_cons_of_length_pos hpos
    simp [hnone, List.replicate_succ] at hback
  · intro hsome old _
    refine ⟨fun k hk hinside => ?_, rfl⟩
    have hlt : k < (signal.clipped offset n).toNat * typeSize signal.typeId := by
      have hkn : k / typeSize signal.typeId < n := (Nat.div_lt_iff_lt_mul hsize).mpr (by omega)
      have hclipped : k / typeSize signal.typeId < (signal.clipped offset n).toNat := by
        unfold Signal.clipped
        unfold Signal.elements at hinside
        split at hinside <;> split <;> omega
      exact (Nat.div_lt_iff_lt_mul hsize).mp hclipped
    rw [List.getElem?_append_left (by rw [List.length_take]; omega),
      List.getElem?_take_of_lt hlt]


/-! ## The three functions -/

theorem LinkedBlock.moveArray_confined (hnumeric : signal.Numeric) (offset : ℕ) {n : ℕ}
    {array : List UInt8} (harray : signal.IsArray array n) (stateBits : UInt8) :
    block.ConfinedWrite
      (block.moveArray p.osal signal offset (signal.orderedArray p array) n stateBits).1
      signal := by
  rcases hnumeric with hboolean | hinteger
  · have hordered : signal.orderedArray p array = array := if_pos hboolean
    have hlen : array.length = n := by
      rw [harray.1, hboolean]
      exact Nat.mul_one n
    rw [hordered]
    exact LinkedBlock.moveArray_boolean_confined p.osal hboolean offset hlen stateBits
  · exact LinkedBlock.moveArray_integer_confined p.osal hinteger offset n _ stateBits

/-- Integers and booleans in the block come back: with `ioc_move` always; as text, if they
are an `os_int` and no state bit is `IOC_SIGNAL_NO_THREAD_SYNC`; as arrays, unless a single
boolean has state bits or a single variable has no elements.  A write changes and
invalidates bytes of its signal, and outside of the block nothing. -/
theorem signal_round_trip_iff (p : SignalProcessor) (block : LinkedBlock)
    (noTbufCheck : Bool) :
    (∀ signals : List (Signal × SignalValue),
      (∀ s ∈ signals, s.1.Numeric ∧ s.1.InBlock block.mblk s.1.valueBytes ∧
        s.1.typeId.InRange p.signedChar s.2.value) →
      (signals.Pairwise fun a b => b.1.Disjoint a.1) →
      ∀ s ∈ signals,
        ((block.move p.osal signals).1.getSignal p s.1 noTbufCheck).value = s.2.value ∧
          block.SameStateBits p noTbufCheck s.2.stateBits
            ((block.move p.osal signals).1.getSignal p s.1 noTbufCheck).stateBits) ∧
    (∀ (signal : Signal) (v : SignalValue), signal.Numeric →
      block.ConfinedWrite (block.moveSignal p.osal signal v).1 signal ∧
        (¬ signal.InBlock block.mblk signal.valueBytes →
          (block.moveSignal p.osal signal v).1 = block)) ∧
    (∀ (signal : Signal) (stateBits : UInt8), signal.Numeric →
      (∀ v, signal.InBlock block.mblk signal.valueBytes →
        signal.typeId.InRange p.signedChar v →
        (block.TextComesBack p signal v stateBits noTbufCheck ↔
          (typeSize signal.typeId = 8 → -2147483648 ≤ v ∧ v < 2147483648) ∧
            stateBits &&& 0x80 = 0)) ∧
      ∀ str, block.ConfinedWrite (block.setText p signal str stateBits).1 signal ∧
        (¬ signal.InBlock block.mblk signal.valueBytes →
          (block.setText p signal str stateBits).1 = block)) ∧
    (∀ (signal : Signal) (offset n : ℕ) (array : List UInt8) (stateBits : UInt8),
      signal.Numeric → 0 < n → signal.IsArray array n →
      (signal.InBlock block.mblk (signal.rangeBytes offset n) →
        (signal.typeId = .boolean →
          (block.ArrayComesBack p signal offset array n stateBits noTbufCheck ↔
            1 < signal.clipped offset n ∨
              block.returnedStateBits p stateBits noTbufCheck ||| p.booleanValue =
                p.booleanValue)) ∧
        (signal.typeId.isInteger = true →
          (block.ArrayComesBack p signal offset array n stateBits noTbufCheck ↔
            ¬ (signal.n = 0 ∧ offset = 0)))) ∧
      block.ConfinedWrite
        (block.moveArray p.osal signal offset (signal.orderedArray p array) n stateBits).1
        signal ∧
      (¬ signal.InBlock block.mblk (signal.rangeBytes offset n) →
        (block.moveArray p.osal signal offset (signal.orderedArray p array) n
          stateBits).1 = block)) := by
  refine ⟨fun signals hsignals hdisjoint =>
    LinkedBlock.move_getSignal signals block noTbufCheck hsignals hdisjoint, ?_, ?_, ?_⟩
  · intro signal v hnumeric
    rw [block.moveSignal_eq hnumeric]
    exact ⟨block.setSignal_confined hnumeric v,
      fun hout => LinkedBlock.setSignal_outside hout p.osal v⟩
  · intro signal stateBits hnumeric
    exact ⟨fun v hin hrange =>
        LinkedBlock.textComesBack_iff hnumeric hin hrange stateBits noTbufCheck,
      fun str => ⟨block.setSignal_confined hnumeric _,
        fun hout => LinkedBlock.setSignal_outside hout p.osal _⟩⟩
  · intro signal offset n array stateBits hnumeric hn harray
    refine ⟨fun hin => ⟨fun hboolean => ?_, fun hinteger => ?_⟩,
      LinkedBlock.moveArray_confined hnumeric offset harray stateBits, fun hout => ?_⟩
    · exact LinkedBlock.arrayComesBack_boolean_iff hboolean hn hin harray stateBits noTbufCheck
    · exact LinkedBlock.arrayComesBack_integer_iff hinteger hn hin harray stateBits noTbufCheck
    · rw [LinkedBlock.moveArray_outside p.osal hout]

def signalsBlock : LinkedBlock :=
  { fiveBytes with mblk.nbytes := 24 }

theorem signal_round_trip_signalsBlock :
    ((signalsBlock.move littleEndianProcessor.osal
        [(⟨0, 1, .short⟩, ⟨-2, 6⟩), (⟨3, 1, .boolean⟩, ⟨1, 2⟩)]).1.getSignal
          littleEndianProcessor ⟨3, 1, .boolean⟩ true).value = 1 ∧
      signalsBlock.TextComesBack littleEndianProcessor ⟨0, 1, .short⟩ (-2) 6 true ∧
      signalsBlock.ArrayComesBack littleEndianProcessor ⟨4, 9, .boolean⟩ 0
        [1, 0, 0, 1, 0, 0, 0, 0, 1] 9 2 true ∧
      signalsBlock.ArrayComesBack littleEndianProcessor ⟨4, 3, .ushort⟩ 1 [1, 0, 2, 0] 2 2
        true := by
  obtain ⟨hmove, -, htext, harray⟩ := signal_round_trip_iff littleEndianProcessor signalsBlock
    true
  refine ⟨?_, ?_, ?_, ?_⟩
  · refine (hmove _ ?_ ?_ (⟨3, 1, .boolean⟩, ⟨1, 2⟩) (by simp)).1
    · simp only [List.mem_cons, List.not_mem_nil, or_false, forall_eq_or_imp, forall_eq]
      exact ⟨⟨Or.inr rfl, ⟨by decide, by decide⟩, by decide, by decide⟩,
        Or.inl rfl, ⟨by decide, by decide⟩, Or.inr rfl⟩
    · simp [Signal.Disjoint, Signal.nroSignalBytes, typeSize]
  · exact ((htext ⟨0, 1, .short⟩ 6 (Or.inr rfl)).1 (-2) ⟨by decide, by decide⟩
      ⟨by decide, by decide⟩).mpr ⟨by decide, by decide⟩
  · exact (((harray ⟨4, 9, .boolean⟩ 0 9 _ 2 (Or.inl rfl) (by decide)
      ⟨rfl, fun _ => by simp [IsBooleans]⟩).1 ⟨by decide, by decide⟩).1 rfl).mpr
        (Or.inl (by decide))
  · exact (((harray ⟨4, 3, .ushort⟩ 1 2 _ 2 (Or.inr rfl) (by decide)
      ⟨rfl, fun h => by cases h⟩).1 ⟨by decide, by decide⟩).2 rfl).mpr (by decide)

/-- The text of a long, a single boolean with state bits, and a single variable. -/
theorem signal_does_not_come_back :
    ¬ signalsBlock.TextComesBack littleEndianProcessor ⟨0, 1, .long⟩ 3000000000 2 true ∧
      ¬ signalsBlock.ArrayComesBack littleEndianProcessor ⟨0, 1, .boolean⟩ 0 [1] 1 2 true ∧
      ¬ signalsBlock.ArrayComesBack littleEndianProcessor ⟨0, 0, .uchar⟩ 0 [5] 1 2 true := by
  refine ⟨?_, ?_, ?_⟩
  · rintro ⟨htext, -⟩
    revert htext
    decide +kernel
  · intro h
    have hstate := (h [0] rfl).2
    revert hstate
    unfold LinkedBlock.SameStateBits
    decide
  · intro h
    have hback := (h [0] rfl).1 0 (by decide) (by decide)
    revert hback
    decide

end Iocom
