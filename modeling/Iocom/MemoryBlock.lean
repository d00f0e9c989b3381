import Iocom.Lib.Segment

/-!
# Memory blocks and transfer buffers

The data of `ioc_memory_block.h`, `ioc_source_buffer.h` and
`ioc_target_buffer.h` which the synchronization functions read and write.
Buffers are windows of byte memories; the structures keep the sizes the code
keeps.  In a bidirectional transfer buffer the `ndata` data bytes are followed
by one change bit for each of them.
-/

namespace Iocom

abbrev Mem := ℤ → UInt8

/-- Flags of a memory block, `IOC_MBLK_DOWN` and so on. -/
structure MblkFlags where
  down : Bool
  up : Bool
  bidirectional : Bool
  allowResize : Bool
  static : Bool
  deriving DecidableEq

structure MemoryBlock where
  mblkId : ℕ
  flags : MblkFlags
  nbytes : ℤ
  bufAllocated : Bool
  buf : Mem

/-- The connection a transfer buffer belongs to: its identity, and whether it
has the flag `IOC_CONNECT_UP`. -/
structure ConnectionLink where
  con : ℕ
  connectUp : Bool
  deriving DecidableEq

/-- `iocInvalidatedRange`. -/
structure InvalidatedRange where
  rangeSet : Bool
  startAddr : ℤ
  endAddr : ℤ

/-- `iocSynchronizedSourceBuffer`.  The buffer of a static memory block is not
allocated: there `hasBuf` is false. -/
structure SynchronizedSourceBuffer where
  hasBuf : Bool
  buf : Mem
  delta : Mem
  nbytes : ℤ
  ndata : ℤ
  bidirectional : Bool
  used : Bool
  makeKeyframe : Bool
  isKeyframe : Bool
  startAddr : ℤ
  endAddr : ℤ
  bidirStartAddr : ℤ
  bidirEndAddr : ℤ
  bidirRangeSet : Bool

structure SourceBuffer where
  remoteMblkId : ℤ
  changed : InvalidatedRange
  syncbuf : SynchronizedSourceBuffer
  clink : ConnectionLink

/-- `iocSynchronizedTargetBuffer`. -/
structure SynchronizedTargetBuffer where
  buf : Mem
  newdata : Mem
  nbytes : ℤ
  ndata : ℤ
  bidirectional : Bool
  bufUsed : Bool
  bufStartAddr : ℤ
  bufEndAddr : ℤ
  hasNewData : Bool
  newdataStartAddr : ℤ
  newdataEndAddr : ℤ

structure TargetBuffer where
  remoteMblkId : ℤ
  syncbuf : SynchronizedTargetBuffer
  clink : ConnectionLink

/-- Assigning a value to an `os_short` keeps its low 16 bits. -/
def osShort (n : ℤ) : ℤ := Int.bmod n 65536

/-- Passing an `os_uint` where an `os_int` is expected. -/
def osInt (n : ℤ) : ℤ := Int.bmod n 4294967296

/-- Passing an `os_int` where an `os_uint` is expected. -/
def osUint (n : ℤ) : ℕ := (n % 4294967296).toNat

def transferBytes (ndata : ℤ) (bidirectional : Bool) : ℤ :=
  if bidirectional then ndata + (ndata + 7) / 8 else ndata

theorem osInt_of_range {n : ℤ} (hlo : -2147483648 ≤ n) (hhi : n < 2147483648) :
    osInt n = n := by
  unfold osInt
  rw [Int.bmod_def]
  omega

theorem osInt_bounds (n : ℤ) : -2147483648 ≤ osInt n ∧ osInt n < 2147483648 := by
  unfold osInt
  rw [Int.bmod_def]
  omega

theorem osInt_le {i : ℤ} (h : 0 ≤ i) : osInt i ≤ i := by
  unfold osInt
  rw [Int.bmod_def]
  omega

theorem osInt_osUint {n : ℤ} (hlo : 0 ≤ n) (hhi : n < 2147483648) :
    osInt (osUint n) = n := by
  unfold osUint
  rw [Int.toNat_of_nonneg (by omega), Int.emod_eq_of_lt hlo (by omega)]
  exact osInt_of_range (by omega) hhi

/-! ## Change bits -/

/-- The change bit of data byte `i` in a buffer of `ndata` data bytes:
`(bits[i >> 3] >> (i & 7)) & 1`. -/
def changeBit (m : Mem) (ndata i : ℤ) : Bool :=
  (m (ndata + i / 8)).toNat.testBit (i % 8).toNat

/-- Set the change bits of the bytes `startAddr .. endAddr`, as the loop of
`ioc_sbuf_invalidate_bytes` does with its two masks. -/
def setChangeBits (m : Mem) (ndata startAddr endAddr : ℤ) : Mem :=
  let startMask : UInt8 := 0xFF <<< UInt8.ofNat (startAddr % 8).toNat
  let endMask : UInt8 := 0xFF >>> UInt8.ofNat (7 - endAddr % 8).toNat
  let first := ndata + startAddr / 8
  let last := ndata + endAddr / 8
  fun i =>
    if first = last then
      if i = first then m i ||| (startMask &&& endMask) else m i
    else if i = first then m i ||| startMask
    else if first < i ∧ i < last then m i ||| 0xFF
    else if i = last then m i ||| endMask
    else m i

/-- `os_memclear` of the cells `first .. last`. -/
def clearRange (m : Mem) (first last : ℤ) : Mem :=
  fun i => if first ≤ i ∧ i ≤ last then 0 else m i

@[simp] theorem clearRange_apply (m : Mem) (first last i : ℤ) :
    clearRange m first last i = if first ≤ i ∧ i ≤ last then 0 else m i := rfl

theorem testBit_startMask (b : UInt8) {s k : ℕ} (hs : s < 8) (hk : k < 8) :
    (b ||| (0xFF <<< UInt8.ofNat s)).toNat.testBit k =
      (b.toNat.testBit k || decide (s ≤ k)) := by
  have hmask : ∀ s < 8, ∀ k < 8,
      ((0xFF : UInt8) <<< UInt8.ofNat s).toNat.testBit k = decide (s ≤ k) := by
    decide
  rw [UInt8.toNat_or, Nat.testBit_or, hmask s hs k hk]

theorem testBit_endMask (b : UInt8) {e k : ℕ} (he : e < 8) (hk : k < 8) :
    (b ||| (0xFF >>> UInt8.ofNat (7 - e))).toNat.testBit k =
      (b.toNat.testBit k || decide (k ≤ e)) := by
  have hmask : ∀ e < 8, ∀ k < 8,
      ((0xFF : UInt8) >>> UInt8.ofNat (7 - e)).toNat.testBit k = decide (k ≤ e) := by
    decide
  rw [UInt8.toNat_or, Nat.testBit_or, hmask e he k hk]

theorem testBit_bothMasks (b : UInt8) {s e k : ℕ}
    (hs : s < 8) (he : e < 8) (hk : k < 8) :
    (b ||| ((0xFF <<< UInt8.ofNat s) &&& (0xFF >>> UInt8.ofNat (7 - e)))).toNat.testBit k =
      (b.toNat.testBit k || decide (s ≤ k ∧ k ≤ e)) := by
  have hmask : ∀ s < 8, ∀ e < 8, ∀ k < 8,
      (((0xFF : UInt8) <<< UInt8.ofNat s) &&& (0xFF >>> UInt8.ofNat (7 - e))).toNat.testBit k =
        decide (s ≤ k ∧ k ≤ e) := by
    decide
  rw [UInt8.toNat_or, Nat.testBit_or, hmask s hs e he k hk]

theorem testBit_fullMask (b : UInt8) {k : ℕ} (hk : k < 8) :
    (b ||| 0xFF).toNat.testBit k = true := by
  have hmask : ∀ k < 8, (0xFF : UInt8).toNat.testBit k = true := by decide
  rw [UInt8.toNat_or, Nat.testBit_or, hmask k hk, Bool.or_true]

theorem changeBit_setChangeBits (m : Mem) (ndata : ℤ)
    {startAddr endAddr : ℤ} (hle : startAddr ≤ endAddr) (i : ℤ) :
    changeBit (setChangeBits m ndata startAddr endAddr) ndata i =
      (changeBit m ndata i || decide (startAddr ≤ i ∧ i ≤ endAddr)) := by
  have hs : (startAddr % 8).toNat < 8 := by omega
  have he : (7 - endAddr % 8).toNat = 7 - (endAddr % 8).toNat := by omega
  have he' : (endAddr % 8).toNat < 8 := by omega
  have hk : (i % 8).toNat < 8 := by omega
  unfold changeBit setChangeBits
  simp only [he]
  by_cases hone : ndata + startAddr / 8 = ndata + endAddr / 8
  · rw [if_pos hone]
    by_cases hi : ndata + i / 8 = ndata + startAddr / 8
    · rw [if_pos hi, testBit_bothMasks _ hs he' hk]
      congr 1
      simp only [decide_eq_decide]
      omega
    · rw [if_neg hi, show decide (startAddr ≤ i ∧ i ≤ endAddr) = false by
        simp only [decide_eq_false_iff_not]
        omega, Bool.or_false]
  · rw [if_neg hone]
    by_cases hfirst : ndata + i / 8 = ndata + startAddr / 8
    · rw [if_pos hfirst, testBit_startMask _ hs hk]
      congr 1
      simp only [decide_eq_decide]
      omega
    · rw [if_neg hfirst]
      by_cases hmid : ndata + startAddr / 8 < ndata + i / 8 ∧
          ndata + i / 8 < ndata + endAddr / 8
      · rw [if_pos hmid, testBit_fullMask _ hk, show
          decide (startAddr ≤ i ∧ i ≤ endAddr) = true by
            simp only [decide_eq_true_eq]
            omega, Bool.or_true]
      · rw [if_neg hmid]
        by_cases hlast : ndata + i / 8 = ndata + endAddr / 8
        · rw [if_pos hlast, testBit_endMask _ he' hk]
          congr 1
          simp only [decide_eq_decide]
          omega
        · rw [if_neg hlast, show decide (startAddr ≤ i ∧ i ≤ endAddr) = false by
            simp only [decide_eq_false_iff_not]
            omega, Bool.or_false]

theorem setChangeBits_of_lt (m : Mem) {ndata startAddr endAddr i : ℤ}
    (hstart : 0 ≤ startAddr) (hle : startAddr ≤ endAddr) (hi : i < ndata) :
    setChangeBits m ndata startAddr endAddr i = m i := by
  have hfirst : ¬i = ndata + startAddr / 8 := by omega
  unfold setChangeBits
  rw [if_neg hfirst]
  split
  · rfl
  · rw [if_neg (by omega), if_neg (by omega)]

end Iocom
