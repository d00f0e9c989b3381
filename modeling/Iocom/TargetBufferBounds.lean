import Iocom.DataFrame
import Iocom.MemoryBlockAccess
import Iocom.Lib.TransitionSystem

/-!
# Bounds of received data frames

Which offsets of a target buffer a received data frame writes, for any address
field, payload and flags.  The room for new data is computed from a signed
address, and a frame to a bidirectional buffer may run over from the data bytes
into the change bits; the condition under which a frame stays in bounds is
stated and proved exact.
-/

namespace Iocom

def TargetBuffer.decoded
    (tbuf : TargetBuffer) (addr : ℤ) (data : List UInt8) (flags : DataFlags) :
    List UInt8 × Bool :=
  uncompress data (tbuf.syncbuf.maxNewdata addr).toNat flags.compressed

/-- The synchronization structure after the decoded bytes have been combined
with the new data and their range has been marked. -/
def TargetBuffer.marked
    (tbuf : TargetBuffer) (addr : ℤ) (data : List UInt8) (flags : DataFlags) :
    SynchronizedTargetBuffer :=
  { tbuf.syncbuf with
    newdata :=
      Segment.combineAt flags.combine tbuf.syncbuf.newdata addr
        (tbuf.decoded addr data flags).1 }.invalidate
    addr (addr + (tbuf.decoded addr data flags).1.length - 1)

/-- The offsets of `newdata` which `ioc_store_data_frame` writes. -/
def TargetBuffer.newdataWrites
    (tbuf : TargetBuffer) (addr : ℤ) (data : List UInt8) (flags : DataFlags) :
    List (ℤ × ℤ) :=
  if tbuf.syncbuf.maxNewdata addr < 0 ∨
      (tbuf.decoded addr data flags).1.length = 0 then []
  else [(addr, addr + (tbuf.decoded addr data flags).1.length - 1)]

/-- The offsets of the synchronized buffer which `ioc_tbuf_synchronize`
writes. -/
def SynchronizedTargetBuffer.synchronizeWrites
    (sync : SynchronizedTargetBuffer) : List (ℤ × ℤ) :=
  if !sync.hasNewData || decide (sync.newPart.2 < sync.newPart.1) then []
  else if sync.bidirectional then
    [sync.newPart,
      (sync.ndata + sync.newPart.1 / 8, sync.ndata + sync.newPart.2 / 8)]
  else [sync.newPart]

/-- The offsets of the synchronized buffer which `ioc_store_data_frame`
writes. -/
def TargetBuffer.bufWrites
    (tbuf : TargetBuffer) (addr : ℤ) (data : List UInt8) (flags : DataFlags) :
    List (ℤ × ℤ) :=
  if tbuf.syncbuf.maxNewdata addr < 0 ∨
      (tbuf.decoded addr data flags).2 = true ∨
      (tbuf.decoded addr data flags).1.length = 0 ∨
      flags.syncComplete = false then []
  else (tbuf.marked addr data flags).synchronizeWrites

theorem TargetBuffer.storeDataFrame_eq
    (tbuf : TargetBuffer) (addr : ℤ) (data : List UInt8) (flags : DataFlags) :
    tbuf.storeDataFrame addr data flags =
      if tbuf.syncbuf.maxNewdata addr < 0 then (false, tbuf)
      else if (tbuf.decoded addr data flags).2 then
        (false,
          { tbuf with
            syncbuf.newdata :=
              Segment.combineAt flags.combine tbuf.syncbuf.newdata addr
                (tbuf.decoded addr data flags).1 })
      else if (tbuf.decoded addr data flags).1.length = 0 then
        (true,
          { tbuf with
            syncbuf.newdata :=
              Segment.combineAt flags.combine tbuf.syncbuf.newdata addr
                (tbuf.decoded addr data flags).1 })
      else
        (true,
          { tbuf with
            syncbuf :=
              if flags.syncComplete then
                (tbuf.marked addr data flags).synchronize
              else tbuf.marked addr data flags }) := rfl

theorem SynchronizedTargetBuffer.invalidate_newdata
    (sync : SynchronizedTargetBuffer) (first last : ℤ) :
    (sync.invalidate first last).newdata = sync.newdata := by
  unfold SynchronizedTargetBuffer.invalidate
  split
  · rfl
  split <;> rfl

theorem SynchronizedTargetBuffer.invalidate_nbytes
    (sync : SynchronizedTargetBuffer) (first last : ℤ) :
    (sync.invalidate first last).nbytes = sync.nbytes := by
  unfold SynchronizedTargetBuffer.invalidate
  split
  · rfl
  split <;> rfl

theorem SynchronizedTargetBuffer.synchronize_newdata
    (sync : SynchronizedTargetBuffer) : sync.synchronize.newdata = sync.newdata := by
  unfold SynchronizedTargetBuffer.synchronize
  split
  · rfl
  dsimp only
  split
  · rfl
  split <;> rfl

theorem SynchronizedTargetBuffer.synchronize_sizes
    (sync : SynchronizedTargetBuffer) :
    sync.synchronize.ndata = sync.ndata ∧
      sync.synchronize.nbytes = sync.nbytes ∧
      sync.synchronize.bidirectional = sync.bidirectional ∧
      sync.synchronize.hasNewData = false := by
  unfold SynchronizedTargetBuffer.synchronize
  cases hnew : sync.hasNewData with
  | false => simp [hnew]
  | true =>
      simp only [Bool.not_true, Bool.false_eq_true, if_false]
      split
      · simp
      split <;> simp

/-- Offsets of `newdata` outside the written ones keep their value. -/
theorem TargetBuffer.newdata_of_outside
    (tbuf : TargetBuffer) (addr : ℤ) (data : List UInt8) (flags : DataFlags)
    {i : ℤ}
    (hout : ∀ w ∈ tbuf.newdataWrites addr data flags, ¬(w.1 ≤ i ∧ i ≤ w.2)) :
    (tbuf.storeDataFrame addr data flags).2.syncbuf.newdata i =
      tbuf.syncbuf.newdata i := by
  have hcombine : ¬(tbuf.syncbuf.maxNewdata addr < 0) →
      Segment.combineAt flags.combine tbuf.syncbuf.newdata addr
        (tbuf.decoded addr data flags).1 i = tbuf.syncbuf.newdata i := by
    intro hmax
    apply Segment.combineAt_of_outside
    by_cases hzero : (tbuf.decoded addr data flags).1.length = 0
    · omega
    · have := hout (addr, addr + (tbuf.decoded addr data flags).1.length - 1) (by
        simp [TargetBuffer.newdataWrites, hmax, hzero])
      dsimp only at this
      omega
  rw [TargetBuffer.storeDataFrame_eq]
  split
  · rfl
  rename_i hmax
  split
  · exact hcombine hmax
  split
  · exact hcombine hmax
  · have hmarked : (tbuf.marked addr data flags).newdata i =
        tbuf.syncbuf.newdata i := by
      rw [TargetBuffer.marked, SynchronizedTargetBuffer.invalidate_newdata]
      exact hcombine hmax
    dsimp only
    split
    · rw [SynchronizedTargetBuffer.synchronize_newdata]
      exact hmarked
    · exact hmarked

theorem SynchronizedTargetBuffer.synchronize_buf
    (sync : SynchronizedTargetBuffer) {i : ℤ}
    (hout : ∀ w ∈ sync.synchronizeWrites, ¬(w.1 ≤ i ∧ i ≤ w.2)) :
    sync.synchronize.buf i = sync.buf i := by
  cases hnew : sync.hasNewData with
  | false => simp [SynchronizedTargetBuffer.synchronize, hnew]
  | true =>
      by_cases hempty : sync.newPart.2 < sync.newPart.1
      · simp [SynchronizedTargetBuffer.synchronize, hnew, hempty]
      · have hbuf : sync.synchronize.buf =
            sync.copyNewData sync.newPart.1 sync.newPart.2 := by
          cases hused : sync.bufUsed <;>
            simp [SynchronizedTargetBuffer.synchronize, hnew, hempty, hused]
        rw [hbuf]
        unfold SynchronizedTargetBuffer.copyNewData
        unfold SynchronizedTargetBuffer.synchronizeWrites at hout
        rw [if_neg (by simp [hnew, hempty])] at hout
        cases hbidir : sync.bidirectional with
        | false =>
            rw [hbidir, if_neg (by simp)] at hout
            have := hout sync.newPart (by simp)
            simp [this]
        | true =>
            rw [hbidir, if_pos rfl] at hout
            have hdata := hout sync.newPart (by simp)
            have hbits := hout (sync.ndata + sync.newPart.1 / 8,
              sync.ndata + sync.newPart.2 / 8) (by simp)
            dsimp only at hbits
            simp [hdata, hbits]

/-- Offsets of the synchronized buffer outside the written ones keep their
value. -/
theorem TargetBuffer.buf_of_outside
    (tbuf : TargetBuffer) (addr : ℤ) (data : List UInt8) (flags : DataFlags)
    {i : ℤ}
    (hout : ∀ w ∈ tbuf.bufWrites addr data flags, ¬(w.1 ≤ i ∧ i ≤ w.2)) :
    (tbuf.storeDataFrame addr data flags).2.syncbuf.buf i = tbuf.syncbuf.buf i := by
  have hmarked : (tbuf.marked addr data flags).buf = tbuf.syncbuf.buf :=
    (SynchronizedTargetBuffer.invalidate_rest _ _ _).1
  rw [TargetBuffer.storeDataFrame_eq]
  split
  · rfl
  rename_i hmax
  split
  · rfl
  rename_i hgood
  split
  · rfl
  rename_i hsome
  dsimp only
  split
  · rename_i hsync
    rw [SynchronizedTargetBuffer.synchronize_buf, hmarked]
    intro w hw
    apply hout w
    rw [TargetBuffer.bufWrites, if_neg (by simp [hmax, hgood, hsome, hsync])]
    exact hw
  · rw [hmarked]

theorem TargetBuffer.storeDataFrame_ndata
    (tbuf : TargetBuffer) (addr : ℤ) (data : List UInt8) (flags : DataFlags) :
    (tbuf.storeDataFrame addr data flags).2.syncbuf.ndata = tbuf.syncbuf.ndata := by
  have hmarked : (tbuf.marked addr data flags).ndata = tbuf.syncbuf.ndata :=
    (SynchronizedTargetBuffer.invalidate_rest _ _ _).2.1
  rw [TargetBuffer.storeDataFrame_eq]
  split
  · rfl
  split
  · rfl
  split
  · rfl
  dsimp only
  split
  · rw [(SynchronizedTargetBuffer.synchronize_sizes _).1, hmarked]
  · exact hmarked

/-! ## In bounds -/

structure SynchronizedTargetBuffer.Consistent
    (sync : SynchronizedTargetBuffer) : Prop where
  ndata : 0 ≤ sync.ndata
  nbytes : sync.nbytes = transferBytes sync.ndata sync.bidirectional
  bound : sync.nbytes < 0x80000000
  newRange :
    sync.hasNewData = true →
      0 ≤ sync.newdataStartAddr ∧ sync.newdataStartAddr < sync.ndata ∧
        sync.newdataStartAddr ≤ sync.newdataEndAddr ∧
        sync.newdataEndAddr < sync.nbytes
  bufRange :
    sync.bufUsed = true →
      0 ≤ sync.bufStartAddr ∧ sync.bufStartAddr ≤ sync.bufEndAddr ∧
        sync.bufEndAddr < sync.ndata

/-- The frame writes inside the buffers, the pending range is inside the data,
and the receive which follows stays inside the memory block. -/
structure TargetBuffer.StoreInBounds
    (tbuf : TargetBuffer) (addr : ℤ) (data : List UInt8) (flags : DataFlags) :
    Prop where
  newdata : ∀ w ∈ tbuf.newdataWrites addr data flags,
    0 ≤ w.1 ∧ w.2 < tbuf.syncbuf.nbytes
  buf : ∀ w ∈ tbuf.bufWrites addr data flags,
    0 ≤ w.1 ∧ w.2 < tbuf.syncbuf.nbytes
  pending :
    (tbuf.storeDataFrame addr data flags).2.syncbuf.bufUsed = true →
      0 ≤ (tbuf.storeDataFrame addr data flags).2.syncbuf.bufStartAddr ∧
        (tbuf.storeDataFrame addr data flags).2.syncbuf.bufStartAddr ≤
          (tbuf.storeDataFrame addr data flags).2.syncbuf.bufEndAddr ∧
        (tbuf.storeDataFrame addr data flags).2.syncbuf.bufEndAddr <
          tbuf.syncbuf.ndata
  receive : ∀ (mblk : MemoryBlock) (sbufs : List SourceBuffer) (i : ℤ),
    mblk.nbytes = tbuf.syncbuf.ndata → i < 0 ∨ mblk.nbytes ≤ i →
      (receiveTargetBuffer mblk sbufs
        (tbuf.storeDataFrame addr data flags).2).1.buf i = mblk.buf i

def TargetBuffer.StoreSafe
    (tbuf : TargetBuffer) (addr : ℤ) (data : List UInt8) (flags : DataFlags) :
    Prop :=
  (tbuf.storeDataFrame addr data flags).1 = false ∨
    tbuf.StoreInBounds addr data flags

/-- The frame is rejected, decodes to nothing, or has a non-negative address;
and if it completes a snapshot in a bidirectional buffer, neither it nor the
new data collected so far runs over from the data into the change bits. -/
def TargetBuffer.FrameFits
    (tbuf : TargetBuffer) (addr : ℤ) (data : List UInt8) (flags : DataFlags) :
    Prop :=
  tbuf.syncbuf.maxNewdata addr < 0 ∨
    (tbuf.decoded addr data flags).2 = true ∨
    (tbuf.decoded addr data flags).1.length = 0 ∨
    (0 ≤ addr ∧
      (flags.syncComplete = true → tbuf.syncbuf.bidirectional = true →
        (addr < tbuf.syncbuf.ndata →
          addr + (tbuf.decoded addr data flags).1.length ≤ tbuf.syncbuf.ndata) ∧
        (tbuf.syncbuf.hasNewData = true →
          tbuf.syncbuf.newdataEndAddr < tbuf.syncbuf.ndata)))

theorem receiveTargetBuffer_of_outside
    (mblk : MemoryBlock) (sbufs : List SourceBuffer) (tbuf : TargetBuffer) {i : ℤ}
    (hout : ¬tbuf.syncbuf.Pending i) :
    (receiveTargetBuffer mblk sbufs tbuf).1.buf i = mblk.buf i := by
  unfold receiveTargetBuffer
  split
  · rename_i hused
    have hrange : ¬(tbuf.syncbuf.bufStartAddr ≤ i ∧ i ≤ tbuf.syncbuf.bufEndAddr) :=
      fun h => hout ⟨hused, h⟩
    unfold MemoryBlock.copyReceived
    dsimp only
    split
    · simp [hrange]
    · simp [hrange]
  · rfl

theorem TargetBuffer.marked_sizes
    (tbuf : TargetBuffer) (addr : ℤ) (data : List UInt8) (flags : DataFlags) :
    (tbuf.marked addr data flags).ndata = tbuf.syncbuf.ndata ∧
      (tbuf.marked addr data flags).bidirectional = tbuf.syncbuf.bidirectional ∧
      (tbuf.marked addr data flags).bufUsed = tbuf.syncbuf.bufUsed ∧
      (tbuf.marked addr data flags).bufStartAddr = tbuf.syncbuf.bufStartAddr ∧
      (tbuf.marked addr data flags).bufEndAddr = tbuf.syncbuf.bufEndAddr := by
  have h := SynchronizedTargetBuffer.invalidate_rest
    { tbuf.syncbuf with
      newdata :=
        Segment.combineAt flags.combine tbuf.syncbuf.newdata addr
          (tbuf.decoded addr data flags).1 } addr
    (addr + (tbuf.decoded addr data flags).1.length - 1)
  exact ⟨h.2.1, h.2.2.1, h.2.2.2.1, h.2.2.2.2.1, h.2.2.2.2.2⟩

theorem TargetBuffer.marked_newRange
    (tbuf : TargetBuffer) (addr : ℤ) (data : List UInt8) (flags : DataFlags) :
    (tbuf.syncbuf.ndata ≤ addr →
      (tbuf.marked addr data flags).hasNewData = tbuf.syncbuf.hasNewData ∧
        (tbuf.marked addr data flags).newdataStartAddr =
          tbuf.syncbuf.newdataStartAddr ∧
        (tbuf.marked addr data flags).newdataEndAddr =
          tbuf.syncbuf.newdataEndAddr) ∧
      (addr < tbuf.syncbuf.ndata →
        (tbuf.marked addr data flags).hasNewData = true ∧
          (tbuf.marked addr data flags).newdataStartAddr =
            (if tbuf.syncbuf.hasNewData then
              min addr tbuf.syncbuf.newdataStartAddr else addr) ∧
          (tbuf.marked addr data flags).newdataEndAddr =
            (if tbuf.syncbuf.hasNewData then
              max (addr + (tbuf.decoded addr data flags).1.length - 1)
                tbuf.syncbuf.newdataEndAddr
            else addr + (tbuf.decoded addr data flags).1.length - 1)) := by
  unfold TargetBuffer.marked SynchronizedTargetBuffer.invalidate
  constructor
  · intro hbits
    rw [if_pos hbits]
    exact ⟨rfl, rfl, rfl⟩
  · intro hdata
    rw [if_neg (by dsimp only; omega)]
    cases hnew : tbuf.syncbuf.hasNewData <;> simp

/-- Completing a snapshot of new data from within the data area stays in
bounds, except where a bidirectional buffer has new data past its data area. -/
theorem SynchronizedTargetBuffer.synchronize_inBounds_iff
    (sync : SynchronizedTargetBuffer)
    (hnbytes : sync.nbytes = transferBytes sync.ndata sync.bidirectional)
    (hnew : sync.hasNewData = true →
      0 ≤ sync.newdataStartAddr ∧ sync.newdataStartAddr < sync.ndata ∧
        sync.newdataStartAddr ≤ sync.newdataEndAddr ∧
        sync.newdataEndAddr < sync.nbytes)
    (hbuf : sync.bufUsed = true →
      0 ≤ sync.bufStartAddr ∧ sync.bufStartAddr ≤ sync.bufEndAddr ∧
        sync.bufEndAddr < sync.ndata) :
    ((∀ w ∈ sync.synchronizeWrites, 0 ≤ w.1 ∧ w.2 < sync.nbytes) ∧
      (sync.synchronize.bufUsed = true →
        0 ≤ sync.synchronize.bufStartAddr ∧
          sync.synchronize.bufStartAddr ≤ sync.synchronize.bufEndAddr ∧
          sync.synchronize.bufEndAddr < sync.ndata)) ↔
      (sync.bidirectional = true → sync.hasNewData = true →
        sync.newdataEndAddr < sync.ndata) := by
  cases hhas : sync.hasNewData with
  | false =>
      simp only [SynchronizedTargetBuffer.synchronizeWrites,
        SynchronizedTargetBuffer.synchronize, hhas, Bool.not_false, Bool.true_or,
        if_true]
      simpa using hbuf
  | true =>
      obtain ⟨hlo, hstart, hle, hhi⟩ := hnew hhas
      obtain ⟨hpart_lo, hpart_hi, hpart_bidir, -⟩ := sync.newPart_spec
      by_cases hempty : sync.newPart.2 < sync.newPart.1
      · have hone : ¬sync.bidirectional = true := by
          intro hbidir
          rw [hpart_bidir hbidir] at hempty
          dsimp only at hempty
          omega
        simp only [SynchronizedTargetBuffer.synchronizeWrites,
          SynchronizedTargetBuffer.synchronize, hhas, hempty, decide_true,
          Bool.or_true, if_true, Bool.not_true, Bool.false_eq_true, if_false]
        exact ⟨fun _ hbidir => absurd hbidir hone, fun _ => ⟨by simp, hbuf⟩⟩
      · have hwrites : sync.synchronizeWrites =
            if sync.bidirectional then
              [sync.newPart,
                (sync.ndata + sync.newPart.1 / 8,
                  sync.ndata + sync.newPart.2 / 8)]
            else [sync.newPart] := by
          simp [SynchronizedTargetBuffer.synchronizeWrites, hhas, hempty]
        have hrange : sync.synchronize.bufUsed = true ∧
            sync.synchronize.bufStartAddr =
              (if sync.bufUsed then min sync.newPart.1 sync.bufStartAddr
              else sync.newPart.1) ∧
            sync.synchronize.bufEndAddr =
              (if sync.bufUsed then max sync.newPart.2 sync.bufEndAddr
              else sync.newPart.2) := by
          cases hused : sync.bufUsed <;>
            simp [SynchronizedTargetBuffer.synchronize, hhas, hempty, hused]
        obtain ⟨hused', hstart', hend'⟩ := hrange
        rw [hwrites, hstart', hend']
        simp only [hused', true_implies]
        cases hbidir : sync.bidirectional with
        | false =>
            have hn : sync.nbytes = sync.ndata := by
              rw [hnbytes, transferBytes, hbidir]
              simp
            simp only [Bool.false_eq_true, if_false, false_implies, iff_true,
              List.mem_singleton, forall_eq]
            refine ⟨by omega, ?_⟩
            cases hused : sync.bufUsed with
            | false =>
                simp only [Bool.false_eq_true, if_false]
                omega
            | true =>
                have := hbuf hused
                simp only [if_true]
                omega
        | true =>
            have hn : sync.nbytes = sync.ndata + (sync.ndata + 7) / 8 := by
              rw [hnbytes, transferBytes, hbidir]
              simp
            have hpart := hpart_bidir hbidir
            rw [hpart]
            simp only [if_true, true_implies, List.mem_cons, List.not_mem_nil,
              or_false, forall_eq_or_imp, forall_eq]
            cases hused : sync.bufUsed with
            | false =>
                simp only [Bool.false_eq_true, if_false]
                constructor
                · exact fun h => h.2.2.2
                · intro hfit
                  omega
            | true =>
                have := hbuf hused
                simp only [if_true]
                constructor
                · intro h
                  omega
                · intro hfit
                  omega

theorem TargetBuffer.storeDataFrame_rejected_iff
    (tbuf : TargetBuffer) (addr : ℤ) (data : List UInt8) (flags : DataFlags) :
    (tbuf.storeDataFrame addr data flags).1 = false ↔
      tbuf.syncbuf.maxNewdata addr < 0 ∨
        (tbuf.decoded addr data flags).2 = true := by
  rw [TargetBuffer.storeDataFrame_eq]
  split
  · simp_all
  split
  · simp_all
  split <;> simp_all

theorem TargetBuffer.storeDataFrame_syncbuf
    (tbuf : TargetBuffer) (addr : ℤ) (data : List UInt8) (flags : DataFlags)
    (hmax : ¬tbuf.syncbuf.maxNewdata addr < 0)
    (hgood : ¬(tbuf.decoded addr data flags).2 = true)
    (hsome : ¬(tbuf.decoded addr data flags).1.length = 0) :
    (tbuf.storeDataFrame addr data flags).2.syncbuf =
      if flags.syncComplete then (tbuf.marked addr data flags).synchronize
      else tbuf.marked addr data flags := by
  rw [TargetBuffer.storeDataFrame_eq, if_neg hmax, if_neg hgood, if_neg hsome]

/-- An accepted frame with a non-negative address decodes to bytes inside the
buffer. -/
theorem TargetBuffer.decoded_fits
    {tbuf : TargetBuffer} {addr : ℤ} {data : List UInt8} {flags : DataFlags}
    (hbound : 0 ≤ tbuf.syncbuf.nbytes ∧ tbuf.syncbuf.nbytes < 0x80000000)
    (haddr : 0 ≤ addr ∧ addr < 0x80000000)
    (hmax : ¬tbuf.syncbuf.maxNewdata addr < 0) :
    addr + (tbuf.decoded addr data flags).1.length ≤ tbuf.syncbuf.nbytes := by
  have hroom : tbuf.syncbuf.maxNewdata addr = tbuf.syncbuf.nbytes - addr :=
    osInt_of_range (by omega) (by omega)
  have hlen := uncompress_length_le data
    (tbuf.syncbuf.maxNewdata addr).toNat flags.compressed
  unfold TargetBuffer.decoded
  omega

/-- The range of new data after a frame inside the buffer has been marked. -/
theorem SynchronizedTargetBuffer.Consistent.marked
    {tbuf : TargetBuffer} {addr : ℤ} {data : List UInt8} {flags : DataFlags}
    (h : tbuf.syncbuf.Consistent) (haddr : 0 ≤ addr)
    (hsome : ¬(tbuf.decoded addr data flags).1.length = 0)
    (hfits : addr + (tbuf.decoded addr data flags).1.length ≤
      tbuf.syncbuf.nbytes) :
    (tbuf.marked addr data flags).hasNewData = true →
      0 ≤ (tbuf.marked addr data flags).newdataStartAddr ∧
        (tbuf.marked addr data flags).newdataStartAddr < tbuf.syncbuf.ndata ∧
        (tbuf.marked addr data flags).newdataStartAddr ≤
          (tbuf.marked addr data flags).newdataEndAddr ∧
        (tbuf.marked addr data flags).newdataEndAddr < tbuf.syncbuf.nbytes := by
  intro hnew
  obtain ⟨hbits, hdata⟩ := tbuf.marked_newRange addr data flags
  by_cases hin : addr < tbuf.syncbuf.ndata
  · obtain ⟨-, hs, he⟩ := hdata hin
    rw [hs, he]
    cases hold : tbuf.syncbuf.hasNewData with
    | false =>
        simp only [Bool.false_eq_true, if_false]
        omega
    | true =>
        have := h.newRange hold
        simp only [if_true]
        omega
  · obtain ⟨hh, hs, he⟩ := hbits (not_lt.mp hin)
    rw [hs, he]
    exact h.newRange (hh ▸ hnew)

/-- What a snapshot completed by a frame inside the buffer may run over into,
in terms of the frame and of the new data before it. -/
theorem TargetBuffer.marked_end_iff
    (tbuf : TargetBuffer) (addr : ℤ) (data : List UInt8) (flags : DataFlags) :
    ((tbuf.marked addr data flags).hasNewData = true →
        (tbuf.marked addr data flags).newdataEndAddr < tbuf.syncbuf.ndata) ↔
      (addr < tbuf.syncbuf.ndata →
          addr + (tbuf.decoded addr data flags).1.length ≤ tbuf.syncbuf.ndata) ∧
        (tbuf.syncbuf.hasNewData = true →
          tbuf.syncbuf.newdataEndAddr < tbuf.syncbuf.ndata) := by
  obtain ⟨hbits, hdata⟩ := tbuf.marked_newRange addr data flags
  by_cases hin : addr < tbuf.syncbuf.ndata
  · obtain ⟨hh, -, he⟩ := hdata hin
    rw [hh, he]
    cases hold : tbuf.syncbuf.hasNewData with
    | false =>
        simp only [Bool.false_eq_true, if_false, true_implies, false_implies,
          and_true, hin]
        omega
    | true =>
        simp only [if_true, true_implies, hin]
        omega
  · obtain ⟨hh, -, he⟩ := hbits (not_lt.mp hin)
    rw [hh, he]
    simp [hin]

theorem TargetBuffer.receive_inBounds
    {tbuf tbuf' : TargetBuffer}
    (hpending : tbuf'.syncbuf.bufUsed = true →
      0 ≤ tbuf'.syncbuf.bufStartAddr ∧
        tbuf'.syncbuf.bufStartAddr ≤ tbuf'.syncbuf.bufEndAddr ∧
        tbuf'.syncbuf.bufEndAddr < tbuf.syncbuf.ndata)
    (mblk : MemoryBlock) (sbufs : List SourceBuffer) (i : ℤ)
    (hsize : mblk.nbytes = tbuf.syncbuf.ndata)
    (hout : i < 0 ∨ mblk.nbytes ≤ i) :
    (receiveTargetBuffer mblk sbufs tbuf').1.buf i = mblk.buf i := by
  apply receiveTargetBuffer_of_outside
  rintro ⟨hused, hlo, hhi⟩
  have := hpending hused
  omega

theorem TargetBuffer.storeDataFrame_safe_iff
    (tbuf : TargetBuffer) (addr : ℤ) (data : List UInt8) (flags : DataFlags)
    (h : tbuf.syncbuf.Consistent)
    (hrange : -0x80000000 ≤ addr ∧ addr < 0x80000000) :
    tbuf.StoreSafe addr data flags ↔ tbuf.FrameFits addr data flags := by
  have hbound : 0 ≤ tbuf.syncbuf.nbytes ∧ tbuf.syncbuf.nbytes < 0x80000000 := by
    refine ⟨?_, h.bound⟩
    have := h.ndata
    rw [h.nbytes]
    unfold transferBytes
    split <;> omega
  obtain ⟨hmn, hmb, hmu, hms, hme⟩ := tbuf.marked_sizes addr data flags
  by_cases hmax : tbuf.syncbuf.maxNewdata addr < 0
  · exact ⟨fun _ => .inl hmax, fun _ =>
      .inl ((tbuf.storeDataFrame_rejected_iff addr data flags).mpr (.inl hmax))⟩
  by_cases hgood : (tbuf.decoded addr data flags).2 = true
  · exact ⟨fun _ => .inr (.inl hgood), fun _ =>
      .inl ((tbuf.storeDataFrame_rejected_iff addr data flags).mpr (.inr hgood))⟩
  by_cases hsome : (tbuf.decoded addr data flags).1.length = 0
  · -- Nothing is written, and the pending range is the one before.
    refine ⟨fun _ => .inr (.inr (.inl hsome)), fun _ => .inr ?_⟩
    have hsync : (tbuf.storeDataFrame addr data flags).2.syncbuf =
        { tbuf.syncbuf with
          newdata :=
            Segment.combineAt flags.combine tbuf.syncbuf.newdata addr
              (tbuf.decoded addr data flags).1 } := by
      rw [TargetBuffer.storeDataFrame_eq, if_neg hmax, if_neg hgood, if_pos hsome]
    have hpending : (tbuf.storeDataFrame addr data flags).2.syncbuf.bufUsed = true →
        0 ≤ (tbuf.storeDataFrame addr data flags).2.syncbuf.bufStartAddr ∧
          (tbuf.storeDataFrame addr data flags).2.syncbuf.bufStartAddr ≤
            (tbuf.storeDataFrame addr data flags).2.syncbuf.bufEndAddr ∧
          (tbuf.storeDataFrame addr data flags).2.syncbuf.bufEndAddr <
            tbuf.syncbuf.ndata := by
      rw [hsync]
      exact h.bufRange
    exact
      { newdata := by simp [TargetBuffer.newdataWrites, hsome]
        buf := by simp [TargetBuffer.bufWrites, hsome]
        pending := hpending
        receive := TargetBuffer.receive_inBounds hpending }
  have hsync := tbuf.storeDataFrame_syncbuf addr data flags hmax hgood hsome
  have hnewdata : tbuf.newdataWrites addr data flags =
      [(addr, addr + (tbuf.decoded addr data flags).1.length - 1)] := by
    simp [TargetBuffer.newdataWrites, hmax, hsome]
  have hbuf : tbuf.bufWrites addr data flags =
      if flags.syncComplete then
        (tbuf.marked addr data flags).synchronizeWrites
      else [] := by
    cases hs : flags.syncComplete <;>
      simp [TargetBuffer.bufWrites, hmax, hgood, hsome, hs]
  have hcomplete : 0 ≤ addr → _ := fun haddr =>
    (tbuf.marked addr data flags).synchronize_inBounds_iff
      (by
        rw [hmn, hmb, ← h.nbytes]
        exact SynchronizedTargetBuffer.invalidate_nbytes _ _ _)
      (by
        rw [hmn, show (tbuf.marked addr data flags).nbytes = tbuf.syncbuf.nbytes
          from SynchronizedTargetBuffer.invalidate_nbytes _ _ _]
        exact h.marked haddr hsome
          (TargetBuffer.decoded_fits hbound ⟨haddr, hrange.2⟩ hmax))
      (by
        rw [hmu, hms, hme, hmn]
        exact h.bufRange)
  rw [show (tbuf.marked addr data flags).nbytes = tbuf.syncbuf.nbytes
    from SynchronizedTargetBuffer.invalidate_nbytes _ _ _, hmn, hmb,
    tbuf.marked_end_iff addr data flags] at hcomplete
  constructor
  · rintro (hrejected | hin)
    · rw [TargetBuffer.storeDataFrame_rejected_iff] at hrejected
      rcases hrejected with hneg | hbad
      · exact absurd hneg hmax
      · exact absurd hbad hgood
    · refine .inr (.inr (.inr ?_))
      have haddr : 0 ≤ addr :=
        (hin.newdata _ (by rw [hnewdata]; exact List.mem_singleton.mpr rfl)).1
      refine ⟨haddr, fun hs hbidir => ?_⟩
      refine (hcomplete haddr).mp ⟨?_, ?_⟩ hbidir
      · have := hin.buf
        rw [hbuf, if_pos hs] at this
        exact this
      · have := hin.pending
        rw [hsync, if_pos hs] at this
        exact this
  · rintro (hneg | hbad | hnone | ⟨haddr, hfit⟩)
    · exact absurd hneg hmax
    · exact absurd hbad hgood
    · exact absurd hnone hsome
    · right
      have hfits : addr + (tbuf.decoded addr data flags).1.length ≤
          tbuf.syncbuf.nbytes :=
        TargetBuffer.decoded_fits hbound ⟨haddr, hrange.2⟩ hmax
      have hpending : (tbuf.storeDataFrame addr data flags).2.syncbuf.bufUsed = true →
          0 ≤ (tbuf.storeDataFrame addr data flags).2.syncbuf.bufStartAddr ∧
            (tbuf.storeDataFrame addr data flags).2.syncbuf.bufStartAddr ≤
              (tbuf.storeDataFrame addr data flags).2.syncbuf.bufEndAddr ∧
            (tbuf.storeDataFrame addr data flags).2.syncbuf.bufEndAddr <
              tbuf.syncbuf.ndata := by
        rw [hsync]
        cases hs : flags.syncComplete with
        | false =>
            simp only [Bool.false_eq_true, if_false]
            rw [hmu, hms, hme]
            exact h.bufRange
        | true =>
            simp only [if_true]
            exact ((hcomplete haddr).mpr (hfit hs)).2
      exact
        { newdata := by
            rw [hnewdata]
            simp only [List.mem_singleton, forall_eq]
            omega
          buf := by
            rw [hbuf]
            cases hs : flags.syncComplete with
            | false => simp
            | true =>
                simp only [if_true]
                exact ((hcomplete haddr).mpr (hfit hs)).1
          pending := hpending
          receive := TargetBuffer.receive_inBounds hpending }

/-- A received data frame is rejected or stays in bounds exactly if it fits,
whatever its address field, payload and flags are. -/
theorem storeFrame_safe_iff
    (tbuf : TargetBuffer) (frame : Frame) (h : tbuf.syncbuf.Consistent) :
    tbuf.StoreSafe (osInt frame.addr) frame.payload frame.flags ↔
      tbuf.FrameFits (osInt frame.addr) frame.payload frame.flags :=
  tbuf.storeDataFrame_safe_iff _ _ _ h (osInt_bounds _)

def fourByteTarget : TargetBuffer :=
  initializeTargetBuffer ⟨0, true⟩
    ⟨10, ⟨true, false, false, false, false⟩, 4, true, fun _ => 0⟩ 10 false

theorem fourByteTarget_consistent : fourByteTarget.syncbuf.Consistent where
  ndata := by decide
  nbytes := rfl
  bound := by decide
  newRange := fun h => by simp [fourByteTarget, initializeTargetBuffer] at h
  bufRange := fun h => by simp [fourByteTarget, initializeTargetBuffer] at h

theorem storeFrame_safe_iff_fourByteTarget :
    fourByteTarget.StoreSafe (osInt 3) [9] ⟨false, false, true⟩ ↔
      fourByteTarget.FrameFits (osInt 3) [9] ⟨false, false, true⟩ :=
  storeFrame_safe_iff fourByteTarget ⟨0, false, ⟨false, false, true⟩, 10, 3, [9]⟩
    fourByteTarget_consistent

/-- The address field `0xFFFFFFF0` is accepted: as an `os_int` it is -16, which is below
`newdata` and below `buf`, which is four bytes before it in the same allocation. -/
theorem storeFrame_below_buffer :
    fourByteTarget.syncbuf.Consistent ∧
      ¬fourByteTarget.StoreSafe (osInt 0xFFFFFFF0) [9] ⟨false, false, false⟩ := by
  refine ⟨fourByteTarget_consistent, ?_⟩
  rintro (hrejected | hin)
  · exact absurd hrejected (by decide)
  · exact absurd (hin.newdata (-16, -16) (by decide)).1 (by decide)

/-! ## Runs of fitting frames -/

inductive TargetBufferStep : TargetBuffer → TargetBuffer → Prop
  | deliver (tbuf : TargetBuffer) (frame : Frame)
      (hfits : tbuf.FrameFits (osInt frame.addr) frame.payload frame.flags) :
      TargetBufferStep tbuf (tbuf.storeFrame frame).2
  | receive (tbuf : TargetBuffer) (mblk : MemoryBlock)
      (sbufs : List SourceBuffer) :
      TargetBufferStep tbuf (receiveTargetBuffer mblk sbufs tbuf).2.2

theorem SynchronizedTargetBuffer.Consistent.store
    {tbuf : TargetBuffer} {addr : ℤ} {data : List UInt8} {flags : DataFlags}
    (h : tbuf.syncbuf.Consistent)
    (hrange : -0x80000000 ≤ addr ∧ addr < 0x80000000)
    (hfits : tbuf.FrameFits addr data flags) :
    (tbuf.storeDataFrame addr data flags).2.syncbuf.Consistent := by
  by_cases hmax : tbuf.syncbuf.maxNewdata addr < 0
  · rw [TargetBuffer.storeDataFrame_eq, if_pos hmax]
    exact h
  by_cases hgood : (tbuf.decoded addr data flags).2 = true
  · rw [TargetBuffer.storeDataFrame_eq, if_neg hmax, if_pos hgood]
    exact ⟨h.ndata, h.nbytes, h.bound, h.newRange, h.bufRange⟩
  by_cases hsome : (tbuf.decoded addr data flags).1.length = 0
  · rw [TargetBuffer.storeDataFrame_eq, if_neg hmax, if_neg hgood, if_pos hsome]
    exact ⟨h.ndata, h.nbytes, h.bound, h.newRange, h.bufRange⟩
  have hsafe := (tbuf.storeDataFrame_safe_iff addr data flags h hrange).mpr hfits
  rcases hsafe with hrejected | hin
  · rw [TargetBuffer.storeDataFrame_rejected_iff] at hrejected
    rcases hrejected with hneg | hbad
    · exact absurd hneg hmax
    · exact absurd hbad hgood
  have haddr : 0 ≤ addr :=
    (hin.newdata (addr, addr + (tbuf.decoded addr data flags).1.length - 1) (by
      simp [TargetBuffer.newdataWrites, hmax, hsome])).1
  have hsync := tbuf.storeDataFrame_syncbuf addr data flags hmax hgood hsome
  have hpending := hin.pending
  have hbound : 0 ≤ tbuf.syncbuf.nbytes ∧ tbuf.syncbuf.nbytes < 0x80000000 := by
    refine ⟨?_, h.bound⟩
    have := h.ndata
    rw [h.nbytes]
    unfold transferBytes
    split <;> omega
  have hmarked : (tbuf.marked addr data flags).hasNewData = true →
      0 ≤ (tbuf.marked addr data flags).newdataStartAddr ∧
        (tbuf.marked addr data flags).newdataStartAddr < tbuf.syncbuf.ndata ∧
        (tbuf.marked addr data flags).newdataStartAddr ≤
          (tbuf.marked addr data flags).newdataEndAddr ∧
        (tbuf.marked addr data flags).newdataEndAddr < tbuf.syncbuf.nbytes :=
    h.marked haddr hsome
      (TargetBuffer.decoded_fits hbound ⟨haddr, hrange.2⟩ hmax)
  obtain ⟨hmn, hmb, -⟩ := tbuf.marked_sizes addr data flags
  have hmbytes : (tbuf.marked addr data flags).nbytes = tbuf.syncbuf.nbytes :=
    SynchronizedTargetBuffer.invalidate_nbytes _ _ _
  have hsizes := (tbuf.marked addr data flags).synchronize_sizes
  rw [hsync] at hpending ⊢
  cases hs : flags.syncComplete with
  | false =>
      simp only [hs, Bool.false_eq_true, if_false] at hpending ⊢
      exact
        { ndata := by rw [hmn]; exact h.ndata
          nbytes := by rw [hmbytes, hmn, hmb]; exact h.nbytes
          bound := by rw [hmbytes]; exact h.bound
          newRange := by rw [hmn, hmbytes]; exact hmarked
          bufRange := by rw [hmn]; exact hpending }
  | true =>
      simp only [hs, if_true] at hpending ⊢
      exact
        { ndata := by rw [hsizes.1, hmn]; exact h.ndata
          nbytes := by
            rw [hsizes.2.1, hsizes.1, hsizes.2.2.1, hmbytes, hmn, hmb]
            exact h.nbytes
          bound := by rw [hsizes.2.1, hmbytes]; exact h.bound
          newRange := fun hnew => by
            rw [hsizes.2.2.2] at hnew
            contradiction
          bufRange := by rw [hsizes.1, hmn]; exact hpending }

theorem initializeTargetBuffer_consistent
    (con : ConnectionLink) (mblk : MemoryBlock) (remoteMblkId : ℤ)
    (bidirectional : Bool) (hsize : 0 ≤ mblk.nbytes)
    (hbound : transferBytes mblk.nbytes bidirectional < 0x80000000) :
    (initializeTargetBuffer con mblk remoteMblkId
      bidirectional).syncbuf.Consistent where
  ndata := hsize
  nbytes := rfl
  bound := hbound
  newRange := fun h => by simp [initializeTargetBuffer] at h
  bufRange := fun h => by simp [initializeTargetBuffer] at h

/-- In a run of fitting frames the target buffer stays consistent, and the next
frame is safe exactly if it fits. -/
theorem fitting_run_safe
    {tbuf₀ tbuf : TargetBuffer} (hstart : tbuf₀.syncbuf.Consistent)
    (hrun : Relation.ReflTransGen TargetBufferStep tbuf₀ tbuf) :
    tbuf.syncbuf.Consistent := by
  refine TransitionSystem.invariant_of_run (fun t => t.syncbuf.Consistent) ?_
    hstart hrun
  intro t u h hstep
  cases hstep with
  | deliver frame hfits => exact h.store (osInt_bounds _) hfits
  | receive mblk sbufs =>
      unfold receiveTargetBuffer
      split
      · exact ⟨h.ndata, h.nbytes, h.bound, h.newRange, fun hused => by
          simp [SynchronizedTargetBuffer.finishReceive] at hused⟩
      · exact h

end Iocom
