import Iocom.SourceBuffer
import Iocom.FrameCompression
import Iocom.Frame

/-!
# Target buffers

The operations of `ioc_target_buffer.c`, and the storing of a received data
frame (`ioc_store_data_frame`).
-/

namespace Iocom

/-- `ioc_initialize_target_buffer`.  A block which is written by both ends
starts with all change bits of the new data set on the controller side. -/
def initializeTargetBuffer
    (con : ConnectionLink) (mblk : MemoryBlock) (remoteMblkId : ℤ)
    (bidirectional : Bool) : TargetBuffer where
  remoteMblkId := remoteMblkId
  syncbuf :=
    { buf := fun i => if i < mblk.nbytes then mblk.buf i else 0
      newdata := fun i =>
        if i < mblk.nbytes then mblk.buf i
        else if bidirectional && mblk.flags.down && !con.connectUp then 0xFF
        else 0
      nbytes := transferBytes mblk.nbytes bidirectional
      ndata := mblk.nbytes
      bidirectional := bidirectional
      bufUsed := false
      bufStartAddr := 0
      bufEndAddr := 0
      hasNewData := false
      newdataStartAddr := 0
      newdataEndAddr := 0 }
  clink := con

/-- `ioc_tbuf_invalidate`. -/
def SynchronizedTargetBuffer.invalidate
    (sync : SynchronizedTargetBuffer) (startAddr endAddr : ℤ) :
    SynchronizedTargetBuffer :=
  if sync.ndata ≤ startAddr then sync
  else if sync.hasNewData then
    { sync with
      newdataStartAddr := min startAddr sync.newdataStartAddr
      newdataEndAddr := max endAddr sync.newdataEndAddr }
  else
    { sync with
      newdataStartAddr := startAddr
      newdataEndAddr := endAddr
      hasNewData := true }

/-- The range of new data which `ioc_tbuf_synchronize` copies, shrunk from
both ends unless the buffer is bidirectional. -/
def SynchronizedTargetBuffer.newPart
    (sync : SynchronizedTargetBuffer) : ℤ × ℤ :=
  if sync.bidirectional then (sync.newdataStartAddr, sync.newdataEndAddr)
  else
    Segment.shrink sync.buf sync.newdata sync.newdataStartAddr
      sync.newdataEndAddr

/-- The copying of new data to the synchronized buffer: the data bytes are
replaced, and change bits are added to those not yet received. -/
def SynchronizedTargetBuffer.copyNewData
    (sync : SynchronizedTargetBuffer) (startAddr endAddr : ℤ) : Mem :=
  let copied := Segment.copyRange sync.buf sync.newdata startAddr endAddr
  if sync.bidirectional then
    fun i =>
      if sync.ndata + startAddr / 8 ≤ i ∧ i ≤ sync.ndata + endAddr / 8 then
        copied i ||| sync.newdata i
      else copied i
  else copied

/-- `ioc_tbuf_synchronize`. -/
def SynchronizedTargetBuffer.synchronize
    (sync : SynchronizedTargetBuffer) : SynchronizedTargetBuffer :=
  if !sync.hasNewData then sync
  else
    let part := sync.newPart
    let taken := { sync with hasNewData := false }
    if part.2 < part.1 then taken
    else
      let copied := { taken with buf := sync.copyNewData part.1 part.2 }
      if sync.bufUsed then
        { copied with
          bufStartAddr := min part.1 sync.bufStartAddr
          bufEndAddr := max part.2 sync.bufEndAddr }
      else
        { copied with
          bufStartAddr := part.1
          bufEndAddr := part.2
          bufUsed := true }

/-- The effect of `ioc_uncompress` on one destination byte. -/
def DataFlags.combine (flags : DataFlags) (old new : UInt8) : UInt8 :=
  if flags.deltaEncoded then old + new else new

/-- The room for new data from an address on, as `ioc_store_data_frame`
computes it: in an `os_int`, where the difference may wrap around. -/
def SynchronizedTargetBuffer.maxNewdata
    (sync : SynchronizedTargetBuffer) (addr : ℤ) : ℤ :=
  osInt (sync.nbytes - addr)

/-- `ioc_store_data_frame`: whether the frame was accepted, and the buffer
after it.  A corrupted frame has changed the new data by the time it is
rejected. -/
def TargetBuffer.storeDataFrame
    (tbuf : TargetBuffer) (addr : ℤ) (data : List UInt8) (flags : DataFlags) :
    Bool × TargetBuffer :=
  let maxNewdata := tbuf.syncbuf.maxNewdata addr
  if maxNewdata < 0 then (false, tbuf)
  else
    let decoded := uncompress data maxNewdata.toNat flags.compressed
    let stored :=
      { tbuf.syncbuf with
        newdata :=
          Segment.combineAt flags.combine tbuf.syncbuf.newdata addr decoded.1 }
    if decoded.2 then (false, { tbuf with syncbuf := stored })
    else if decoded.1.length = 0 then (true, { tbuf with syncbuf := stored })
    else
      let marked := stored.invalidate addr (addr + decoded.1.length - 1)
      (true,
        { tbuf with
          syncbuf := if flags.syncComplete then marked.synchronize else marked })

/-! ## What completing a snapshot does -/

/-- A byte waits for `ioc_receive`. -/
def SynchronizedTargetBuffer.Pending
    (sync : SynchronizedTargetBuffer) (i : ℤ) : Prop :=
  sync.bufUsed = true ∧ sync.bufStartAddr ≤ i ∧ i ≤ sync.bufEndAddr

def SynchronizedTargetBuffer.Fresh
    (sync : SynchronizedTargetBuffer) (i : ℤ) : Prop :=
  sync.hasNewData = true ∧ sync.newdataStartAddr ≤ i ∧ i ≤ sync.newdataEndAddr

/-- The ranges of a target buffer lie within its data, and the new data has
been copied everywhere except where it is fresh. -/
structure SynchronizedTargetBuffer.WellFormed
    (sync : SynchronizedTargetBuffer) : Prop where
  newRange :
    sync.hasNewData = true →
      0 ≤ sync.newdataStartAddr ∧
        sync.newdataStartAddr ≤ sync.newdataEndAddr ∧
        sync.newdataEndAddr < sync.ndata
  bufRange :
    sync.bufUsed = true →
      0 ≤ sync.bufStartAddr ∧ sync.bufStartAddr ≤ sync.bufEndAddr ∧
        sync.bufEndAddr < sync.ndata
  copied :
    ∀ i, 0 ≤ i → i < sync.ndata → ¬sync.Fresh i → sync.buf i = sync.newdata i

theorem SynchronizedTargetBuffer.invalidate_rest
    (sync : SynchronizedTargetBuffer) (startAddr endAddr : ℤ) :
    (sync.invalidate startAddr endAddr).buf = sync.buf ∧
      (sync.invalidate startAddr endAddr).ndata = sync.ndata ∧
      (sync.invalidate startAddr endAddr).bidirectional = sync.bidirectional ∧
      (sync.invalidate startAddr endAddr).bufUsed = sync.bufUsed ∧
      (sync.invalidate startAddr endAddr).bufStartAddr = sync.bufStartAddr ∧
      (sync.invalidate startAddr endAddr).bufEndAddr = sync.bufEndAddr := by
  unfold SynchronizedTargetBuffer.invalidate
  split
  · simp
  split <;> simp

theorem SynchronizedTargetBuffer.newPart_spec
    (sync : SynchronizedTargetBuffer) :
    sync.newdataStartAddr ≤ sync.newPart.1 ∧
      sync.newPart.2 ≤ sync.newdataEndAddr ∧
      (sync.bidirectional = true →
        sync.newPart = (sync.newdataStartAddr, sync.newdataEndAddr)) ∧
      ∀ i, sync.newdataStartAddr ≤ i → i ≤ sync.newdataEndAddr →
        ¬(sync.newPart.1 ≤ i ∧ i ≤ sync.newPart.2) →
          sync.buf i = sync.newdata i := by
  unfold SynchronizedTargetBuffer.newPart
  split
  · rename_i hbidir
    exact ⟨le_rfl, le_rfl, fun _ => rfl, fun i hlo hhi hout =>
      absurd ⟨hlo, hhi⟩ hout⟩
  · rename_i hbidir
    have hshrink := Segment.shrink_spec sync.buf sync.newdata
      sync.newdataStartAddr sync.newdataEndAddr
    exact ⟨hshrink.1, hshrink.2.1, fun h => absurd h hbidir, hshrink.2.2⟩

theorem SynchronizedTargetBuffer.newPart_ends
    (sync : SynchronizedTargetBuffer) (hone : sync.bidirectional = false)
    (hle : sync.newPart.1 ≤ sync.newPart.2) :
    sync.buf sync.newPart.1 ≠ sync.newdata sync.newPart.1 ∧
      sync.buf sync.newPart.2 ≠ sync.newdata sync.newPart.2 := by
  have hpart : sync.newPart = Segment.shrink sync.buf sync.newdata
      sync.newdataStartAddr sync.newdataEndAddr := by
    unfold SynchronizedTargetBuffer.newPart
    rw [hone, if_neg Bool.false_ne_true]
  rw [hpart] at hle ⊢
  exact Segment.shrink_ends _ _ hle

theorem SynchronizedTargetBuffer.copyNewData_data
    (sync : SynchronizedTargetBuffer) {startAddr endAddr i : ℤ}
    (hstart : 0 ≤ startAddr) (hi : i < sync.ndata) :
    sync.copyNewData startAddr endAddr i =
      if startAddr ≤ i ∧ i ≤ endAddr then sync.newdata i else sync.buf i := by
  unfold SynchronizedTargetBuffer.copyNewData
  split
  · simp only
    rw [if_neg (by omega)]
    simp
  · simp

theorem SynchronizedTargetBuffer.changeBit_copyNewData
    (sync : SynchronizedTargetBuffer) (hbidir : sync.bidirectional = true)
    {startAddr endAddr i : ℤ} (hend : endAddr < sync.ndata) (hi : 0 ≤ i) :
    changeBit (sync.copyNewData startAddr endAddr) sync.ndata i =
      (changeBit sync.buf sync.ndata i ||
        (decide (startAddr / 8 ≤ i / 8 ∧ i / 8 ≤ endAddr / 8) &&
          changeBit sync.newdata sync.ndata i)) := by
  have hcopied : Segment.copyRange sync.buf sync.newdata startAddr endAddr
      (sync.ndata + i / 8) = sync.buf (sync.ndata + i / 8) := by
    rw [Segment.copyRange_apply, if_neg (by omega)]
  unfold changeBit SynchronizedTargetBuffer.copyNewData
  simp only [hbidir, if_true, hcopied]
  by_cases hrange : startAddr / 8 ≤ i / 8 ∧ i / 8 ≤ endAddr / 8
  · rw [if_pos (by omega), UInt8.toNat_or, Nat.testBit_or]
    simp [hrange]
  · rw [if_neg (by omega)]
    simp [hrange]

/-- A byte waits for `ioc_receive`, or its new value is another one. -/
def SynchronizedTargetBuffer.Changes
    (sync : SynchronizedTargetBuffer) (i : ℤ) : Prop :=
  sync.Pending i ∨ sync.Fresh i ∧ sync.buf i ≠ sync.newdata i

/-- What `ioc_tbuf_synchronize` does to the data bytes, the change bits and
the pending range. -/
structure SynchronizedTargetBuffer.Completes
    (sync sync' : SynchronizedTargetBuffer) : Prop where
  newdata : sync'.newdata = sync.newdata
  sizes : sync'.nbytes = sync.nbytes ∧ sync'.ndata = sync.ndata ∧
    sync'.bidirectional = sync.bidirectional
  finished : sync'.hasNewData = false
  wellFormed : sync'.WellFormed
  stillPending : ∀ i, sync.Pending i → sync'.Pending i
  nowPending : ∀ i, sync.Fresh i →
    (sync.bidirectional = true ∨ sync.buf i ≠ sync.newdata i) → sync'.Pending i
  shrunk : sync.bidirectional = false → ∀ i, sync'.Pending i →
    ∃ first last, sync.Changes first ∧ sync.Changes last ∧ first ≤ i ∧ i ≤ last
  changeBits : sync.bidirectional = true →
    ∀ i, 0 ≤ i →
      changeBit sync'.buf sync.ndata i =
        (changeBit sync.buf sync.ndata i ||
          (decide (sync.newdataStartAddr / 8 ≤ i / 8 ∧
              i / 8 ≤ sync.newdataEndAddr / 8) &&
            changeBit sync.newdata sync.ndata i))

theorem SynchronizedTargetBuffer.synchronize_completes
    (sync : SynchronizedTargetBuffer) (hwf : sync.WellFormed)
    (hnew : sync.hasNewData = true) : sync.Completes sync.synchronize := by
  obtain ⟨hlo, hle, hhi⟩ := hwf.newRange hnew
  obtain ⟨hpart_lo, hpart_hi, hpart_bidir, hpart_eq⟩ := sync.newPart_spec
  by_cases hempty : sync.newPart.2 < sync.newPart.1
  · have hsync : sync.synchronize = { sync with hasNewData := false } := by
      simp [SynchronizedTargetBuffer.synchronize, hnew, hempty]
    have hone : ¬sync.bidirectional = true := by
      intro hbidir
      rw [hpart_bidir hbidir] at hempty
      dsimp only at hempty
      omega
    rw [hsync]
    exact
      { newdata := rfl
        sizes := ⟨rfl, rfl, rfl⟩
        finished := rfl
        wellFormed :=
          { newRange := fun h => by simp at h
            bufRange := hwf.bufRange
            copied := fun i h0 hn _ => by
              by_cases hfresh : sync.Fresh i
              · exact hpart_eq i hfresh.2.1 hfresh.2.2 (by omega)
              · exact hwf.copied i h0 hn hfresh }
        stillPending := fun i hi => hi
        nowPending := fun i hfresh hdiff => by
          have heq := hpart_eq i hfresh.2.1 hfresh.2.2 (by omega)
          simp [hone, heq] at hdiff
        shrunk := fun _ i hi => ⟨i, i, .inl hi, .inl hi, le_rfl, le_rfl⟩
        changeBits := fun h => absurd h hone }
  · have hdata : ∀ i, i < sync.ndata →
        sync.copyNewData sync.newPart.1 sync.newPart.2 i =
          if sync.newPart.1 ≤ i ∧ i ≤ sync.newPart.2 then sync.newdata i
          else sync.buf i := fun i hi =>
      sync.copyNewData_data (by omega) hi
    have hcopied : ∀ i, 0 ≤ i → i < sync.ndata →
        sync.copyNewData sync.newPart.1 sync.newPart.2 i = sync.newdata i := by
      intro i h0 hn
      rw [hdata i hn]
      split
      · rfl
      · rename_i hout
        by_cases hfresh : sync.Fresh i
        · exact hpart_eq i hfresh.2.1 hfresh.2.2 hout
        · exact hwf.copied i h0 hn hfresh
    have hbits : sync.bidirectional = true → ∀ i, 0 ≤ i →
        changeBit (sync.copyNewData sync.newPart.1 sync.newPart.2) sync.ndata i =
          (changeBit sync.buf sync.ndata i ||
            (decide (sync.newdataStartAddr / 8 ≤ i / 8 ∧
                i / 8 ≤ sync.newdataEndAddr / 8) &&
              changeBit sync.newdata sync.ndata i)) := by
      intro hbidir i h0
      rw [hpart_bidir hbidir]
      exact sync.changeBit_copyNewData hbidir hhi h0
    have hinside : ∀ i, sync.Fresh i →
        (sync.bidirectional = true ∨ sync.buf i ≠ sync.newdata i) →
          sync.newPart.1 ≤ i ∧ i ≤ sync.newPart.2 := by
      intro i hfresh hdiff
      by_contra hout
      have heq := hpart_eq i hfresh.2.1 hfresh.2.2 hout
      rcases hdiff with hbidir | hne
      · rw [hpart_bidir hbidir] at hout
        exact hout hfresh.2
      · exact hne heq
    have hends : sync.bidirectional = false →
        sync.Changes sync.newPart.1 ∧ sync.Changes sync.newPart.2 := by
      intro hone
      have hchanged := sync.newPart_ends hone (not_lt.mp hempty)
      exact ⟨.inr ⟨⟨hnew, by omega, by omega⟩, hchanged.1⟩,
        .inr ⟨⟨hnew, by omega, by omega⟩, hchanged.2⟩⟩
    cases hused : sync.bufUsed with
    | true =>
        obtain ⟨hblo, hble, hbhi⟩ := hwf.bufRange hused
        have hsync : sync.synchronize =
            { sync with
              hasNewData := false
              buf := sync.copyNewData sync.newPart.1 sync.newPart.2
              bufStartAddr := min sync.newPart.1 sync.bufStartAddr
              bufEndAddr := max sync.newPart.2 sync.bufEndAddr } := by
          simp [SynchronizedTargetBuffer.synchronize, hnew, hempty, hused]
        rw [hsync]
        exact
          { newdata := rfl
            sizes := ⟨rfl, rfl, rfl⟩
            finished := rfl
            wellFormed :=
              { newRange := fun h => by simp at h
                bufRange := fun _ => by dsimp only; omega
                copied := fun i h0 hn _ => hcopied i h0 hn }
            stillPending := fun i hi => by
              obtain ⟨-, h1, h2⟩ := hi
              exact ⟨hused, by dsimp only; omega, by dsimp only; omega⟩
            nowPending := fun i hfresh hdiff => by
              have := hinside i hfresh hdiff
              exact ⟨hused, by dsimp only; omega, by dsimp only; omega⟩
            shrunk := fun hone i hi => by
              obtain ⟨hfirst, hlast⟩ := hends hone
              obtain ⟨-, h1, h2⟩ := hi
              have hbstart : sync.Changes sync.bufStartAddr := .inl ⟨hused, le_rfl, hble⟩
              have hbend : sync.Changes sync.bufEndAddr := .inl ⟨hused, hble, le_rfl⟩
              rcases min_le_iff.mp h1 with hlo | hlo <;>
                rcases le_max_iff.mp h2 with hhi | hhi
              · exact ⟨_, _, hfirst, hlast, hlo, hhi⟩
              · exact ⟨_, _, hfirst, hbend, hlo, hhi⟩
              · exact ⟨_, _, hbstart, hlast, hlo, hhi⟩
              · exact ⟨_, _, hbstart, hbend, hlo, hhi⟩
            changeBits := hbits }
    | false =>
        have hsync : sync.synchronize =
            { sync with
              hasNewData := false
              buf := sync.copyNewData sync.newPart.1 sync.newPart.2
              bufStartAddr := sync.newPart.1
              bufEndAddr := sync.newPart.2
              bufUsed := true } := by
          simp [SynchronizedTargetBuffer.synchronize, hnew, hempty, hused]
        rw [hsync]
        exact
          { newdata := rfl
            sizes := ⟨rfl, rfl, rfl⟩
            finished := rfl
            wellFormed :=
              { newRange := fun h => by simp at h
                bufRange := fun _ => by dsimp only; omega
                copied := fun i h0 hn _ => hcopied i h0 hn }
            stillPending := fun i hi => by simp [hi.1] at hused
            nowPending := fun i hfresh hdiff => ⟨rfl, hinside i hfresh hdiff⟩
            shrunk := fun hone i hi => by
              obtain ⟨hfirst, hlast⟩ := hends hone
              exact ⟨_, _, hfirst, hlast, hi.2.1, hi.2.2⟩
            changeBits := hbits }

end Iocom
