import Iocom.FrameRanges
import Iocom.FrameReassembly
import Iocom.SnapshotTransfer

/-!
# What an accepted final frame completes

A source buffer generates the frames of one snapshot after another, and the
target buffer of the other end stores them, with receives in between.  The new
data which the target has collected is always the part of the current snapshot
that has been sent, so the frame with `IOC_SYNC_COMPLETE` finds all of it.
-/

namespace Iocom

variable {n : ℤ} {bidirectional : Bool}

/-- The frames which a source buffer with `n` data bytes can generate from the
time when nothing is being sent, and the block and the buffer after them. -/
inductive Generates (n : ℤ) (bidirectional : Bool) :
    List Frame → MemoryBlock → SourceBuffer → Prop
  | start {mblk : MemoryBlock} {sbuf : SourceBuffer} (hsize : mblk.nbytes = n)
      (hfits : sbuf.Fits n) (hmode : sbuf.syncbuf.bidirectional = bidirectional)
      (hunused : sbuf.syncbuf.used = false) :
      Generates n bidirectional [] mblk sbuf
  | change {frames : List Frame} {mblk : MemoryBlock} {sbuf : SourceBuffer}
      (h : Generates n bidirectional frames mblk sbuf) (buf : Mem) :
      Generates n bidirectional frames { mblk with buf := buf } sbuf
  | invalidate {frames : List Frame} {mblk : MemoryBlock} {sbuf : SourceBuffer}
      (h : Generates n bidirectional frames mblk sbuf) {first last : ℤ}
      (hfirst : 0 ≤ first) (hle : first ≤ last) (hlast : last < n) :
      Generates n bidirectional frames mblk (sbuf.invalidate mblk first last)
  | keyframe {frames : List Frame} {mblk : MemoryBlock} {sbuf : SourceBuffer}
      (h : Generates n bidirectional frames mblk sbuf) :
      Generates n bidirectional frames mblk
        { sbuf with syncbuf.makeKeyframe := true }
  | synchronize {frames : List Frame} {mblk : MemoryBlock} {sbuf : SourceBuffer}
      (h : Generates n bidirectional frames mblk sbuf) :
      Generates n bidirectional frames mblk (sbuf.synchronize mblk)
  | frame {frames : List Frame} {mblk : MemoryBlock} {sbuf sbuf' : SourceBuffer}
      {con con' : Connection} {frame : Frame}
      (h : Generates n bidirectional frames mblk sbuf)
      (hused : sbuf.syncbuf.used = true)
      (hmake : makeDataFrame con mblk sbuf = some (con', sbuf', frame)) :
      Generates n bidirectional (frames ++ [frame]) mblk sbuf'

def TargetBuffer.storedRange (tbuf : TargetBuffer) (frame : Frame) : ℤ × ℕ :=
  (osInt frame.addr,
    (tbuf.decoded (osInt frame.addr) frame.payload frame.flags).1.length)

/-- A target buffer which has accepted some frames; the ranges are those stored
since the last frame with `IOC_SYNC_COMPLETE`. -/
inductive Receives (tbuf : TargetBuffer) :
    List Frame → TargetBuffer → List (ℤ × ℕ) → Prop
  | start : Receives tbuf [] tbuf []
  | store {frames : List Frame} {t : TargetBuffer} {ranges : List (ℤ × ℕ)}
      {frame : Frame} (h : Receives tbuf frames t ranges)
      (haccept : (t.storeFrame frame).1 = true) :
      Receives tbuf (frames ++ [frame]) (t.storeFrame frame).2
        (if frame.flags.syncComplete then []
          else ranges ++ [t.storedRange frame])
  | receive {frames : List Frame} {t : TargetBuffer} {ranges : List (ℤ × ℕ)}
      (h : Receives tbuf frames t ranges) (hused : t.syncbuf.bufUsed = true) :
      Receives tbuf frames { t with syncbuf := t.syncbuf.finishReceive } ranges

/-- A byte waited for `ioc_receive` before, or its value has changed. -/
def TargetBuffer.Changes (before after : TargetBuffer) (i : ℤ) : Prop :=
  before.syncbuf.Pending i ∨
    0 ≤ i ∧ i < after.syncbuf.ndata ∧ before.syncbuf.buf i ≠ after.syncbuf.buf i

/-- All data of the given ranges has been moved to the synchronized buffer, and
no unchanged bytes at the ends of the ranges wait for `ioc_receive`. -/
structure TargetBuffer.Completed
    (before after : TargetBuffer) (ranges : List (ℤ × ℕ)) : Prop where
  finished : after.syncbuf.hasNewData = false
  moved : ∀ i, 0 ≤ i → i < after.syncbuf.ndata →
    after.syncbuf.buf i = after.syncbuf.newdata i
  changeBits : ∀ range ∈ ranges, ∀ i, 0 ≤ i →
    range.1 ≤ after.syncbuf.ndata + i / 8 →
    after.syncbuf.ndata + i / 8 < range.1 + range.2 →
    changeBit after.syncbuf.newdata after.syncbuf.ndata i = true →
      changeBit after.syncbuf.buf after.syncbuf.ndata i = true
  pending : ∀ range ∈ ranges, ∀ i, range.1 ≤ i → i < range.1 + range.2 →
    i < after.syncbuf.ndata →
    (before.syncbuf.bidirectional = true ∨
      before.syncbuf.buf i ≠ after.syncbuf.newdata i) → after.syncbuf.Pending i
  stillPending : ∀ i, before.syncbuf.Pending i → after.syncbuf.Pending i
  shrunk : before.syncbuf.bidirectional = false → ∀ i, after.syncbuf.Pending i →
    ∃ first last, before.Changes after first ∧ before.Changes after last ∧
      first ≤ i ∧ i ≤ last

/-! ## How far a snapshot has come -/

/-- What of its snapshot the source buffer has still to send, and what of it the
target buffer has as new data. -/
inductive SnapshotPhase (sync : SynchronizedSourceBuffer) (c : Incoming) : Prop
  | idle (unused : sync.used = false) (finished : c.hasNewData = false)
  | data (first : ℤ)
      (used : sync.used = true)
      (range : 0 ≤ first ∧ first ≤ sync.startAddr ∧ sync.endAddr < c.ndata)
      (more : sync.startAddr ≤ sync.endAddr ∨
        first = 0 ∧ sync.startAddr = 0 ∧ sync.endAddr = -1)
      (bits : sync.bidirRangeSet = true →
        sync.bidirectional = true ∧
          sync.bidirStartAddr = c.ndata + first / 8 ∧
          sync.bidirEndAddr = c.ndata + sync.endAddr / 8)
      (hasNew : c.hasNewData = decide (first < sync.startAddr))
      (newRange : first < sync.startAddr →
        c.newStart = first ∧ c.newEnd = sync.startAddr - 1)
  | bits (first last : ℤ)
      (used : sync.used = true)
      (bidir : sync.bidirectional = true)
      (unset : sync.bidirRangeSet = false)
      (range : 0 ≤ first ∧ last < c.ndata)
      (bitRange : c.ndata + first / 8 ≤ sync.startAddr ∧
        sync.endAddr = c.ndata + last / 8)
      (more : first ≤ last ∧ sync.startAddr ≤ sync.endAddr ∨
        last < first ∧ sync.startAddr = sync.endAddr + 1)
      (hasNew : c.hasNewData = decide (first ≤ last))
      (newRange : first ≤ last → c.newStart = first ∧ c.newEnd = last)

def Incoming.Collects (c : Incoming) (range : ℤ × ℕ) : Prop :=
  ∀ i, range.1 ≤ i → i < range.1 + range.2 →
    c.hasNewData = true ∧
      (i < c.ndata ∧ c.newStart ≤ i ∧ i ≤ c.newEnd ∨
        c.ndata ≤ i ∧ c.bidirectional = true ∧
          c.ndata + c.newStart / 8 ≤ i ∧ i ≤ c.ndata + c.newEnd / 8)

structure Incoming.HasSize (c : Incoming) (n : ℤ) (bidirectional : Bool) : Prop where
  ndata : c.ndata = n
  mode : c.bidirectional = bidirectional
  nbytes : c.nbytes = transferBytes n bidirectional
  size : BlockSize n

theorem SnapshotPhase.load
    {sync : SynchronizedSourceBuffer} {c : Incoming} (mblk : MemoryBlock)
    (hndata : sync.hasBuf = true → sync.ndata = c.ndata) {first last : ℤ}
    (hfirst : 0 ≤ first) (hlast : last < c.ndata)
    (hmore : first ≤ last ∨ first = 0 ∧ last = -1)
    (hnew : c.hasNewData = false) :
    SnapshotPhase (sync.load mblk first last) c := by
  have hnone : c.hasNewData = decide (first < first) := by
    rw [hnew, decide_eq_false (lt_irrefl first)]
  unfold SynchronizedSourceBuffer.load
  dsimp only
  cases hbuf : sync.hasBuf with
  | false =>
      rw [if_neg Bool.false_ne_true]
      exact .data first rfl ⟨hfirst, le_rfl, hlast⟩
        (hmore.imp_right fun h => ⟨h.1, h.1, h.2⟩)
        (fun hset => by cases hset) hnone (fun hlt => absurd hlt (lt_irrefl _))
  | true =>
      rw [if_pos rfl, hndata hbuf]
      cases hbidir : sync.bidirectional with
      | false =>
          rw [if_neg Bool.false_ne_true]
          exact .data first rfl ⟨hfirst, le_rfl, hlast⟩
            (hmore.imp_right fun h => ⟨h.1, h.1, h.2⟩)
            (fun hset => by cases hset) hnone (fun hlt => absurd hlt (lt_irrefl _))
      | true =>
          rw [if_pos rfl]
          exact .data first rfl ⟨hfirst, le_rfl, hlast⟩
            (hmore.imp_right fun h => ⟨h.1, h.1, h.2⟩)
            (fun _ => ⟨rfl, rfl, rfl⟩) hnone (fun hlt => absurd hlt (lt_irrefl _))

/-- Marking changes and asking for a key frame do not touch the snapshot. -/
theorem SnapshotPhase.with_marks
    {sync : SynchronizedSourceBuffer} {c : Incoming} (h : SnapshotPhase sync c)
    (buf : Mem) (key : Bool) :
    SnapshotPhase { sync with buf := buf, makeKeyframe := key } c := by
  cases h with
  | idle unused finished => exact .idle unused finished
  | data first used range more bits hasNew newRange =>
      exact .data first used range more bits hasNew newRange
  | bits first last used bidir unset range bitRange more hasNew newRange =>
      exact .bits first last used bidir unset range bitRange more hasNew newRange

theorem SnapshotPhase.synchronize
    {sbuf : SourceBuffer} {mblk : MemoryBlock} {c : Incoming}
    (h : SnapshotPhase sbuf.syncbuf c) (hfits : sbuf.Fits c.ndata)
    (hsize : mblk.nbytes = c.ndata) (hpos : 0 ≤ c.ndata) :
    SnapshotPhase (sbuf.synchronize mblk).syncbuf c := by
  unfold SourceBuffer.synchronize
  dsimp only
  split
  · exact h
  next htaken =>
    simp only [Bool.or_eq_true, Bool.and_eq_true, Bool.not_eq_true', not_or,
      Bool.not_eq_true] at htaken
    obtain ⟨hwork, hfree⟩ := htaken
    have hnew : c.hasNewData = false := by
      cases h with
      | idle unused finished => exact finished
      | data first used => simp [hfree] at used
      | bits first last used => simp [hfree] at used
    split
    · apply SnapshotPhase.load
      · exact hfits.ndata
      · exact le_rfl
      · omega
      · omega
      · exact hnew
    next hkey =>
      have hset : sbuf.changed.rangeSet = true := by
        by_contra hunset
        exact hwork ⟨by simpa using hunset, by simpa using hkey⟩
      obtain ⟨hlo, hle, hhi⟩ := hfits.changed hset
      split
      · apply SnapshotPhase.load
        · exact hfits.ndata
        · exact hlo
        · exact hhi
        · exact .inl hle
        · exact hnew
      · split
        · exact .idle hfree hnew
        next hsome =>
          obtain ⟨hfirst, hlast, -⟩ := sbuf.changedPart_spec mblk
          apply SnapshotPhase.load
          · exact hfits.ndata
          · omega
          · omega
          · left
            omega
          · exact hnew

/-! ## Storing one frame -/

/-- A frame which stands for the bytes from `start` on. -/
structure Frame.Carries (frame : Frame) (start : ℤ) (bytes : List UInt8) : Prop where
  addr : frame.addr = osUint start
  decode : ∀ dstSz, bytes.length ≤ dstSz →
    uncompress frame.payload dstSz frame.flags.compressed = (bytes, false)

def Incoming.put (c : Incoming) (flags : DataFlags) (start : ℤ)
    (bytes : List UInt8) : Incoming :=
  { c with newdata := Segment.combineAt flags.combine c.newdata start bytes }

def Incoming.collect (c : Incoming) (flags : DataFlags) (start : ℤ)
    (bytes : List UInt8) : Incoming :=
  if bytes.length = 0 then c.put flags start bytes
  else (c.put flags start bytes).mark start (start + bytes.length - 1)

theorem Incoming.accept_carries
    {c : Incoming} {frame : Frame} {start : ℤ} {bytes : List UInt8}
    (hcarries : frame.Carries start bytes) (hstart : 0 ≤ start)
    (hroom : start + bytes.length ≤ c.nbytes) (hbound : c.nbytes < 0x80000000)
    (hfit : start < c.ndata → start + bytes.length ≤ c.ndata) :
    c.accept frame =
      if bytes.length ≠ 0 ∧ frame.flags.syncComplete = true ∧
          (c.collect frame.flags start bytes).hasNewData = true then
        some ({ c.collect frame.flags start bytes with hasNewData := false },
          [(c.collect frame.flags start bytes).snapshot])
      else some (c.collect frame.flags start bytes, []) := by
  have haddr : osInt frame.addr = start := by
    rw [hcarries.addr]
    exact osInt_osUint hstart (by omega)
  have hdecode : c.decode start frame.payload frame.flags = (bytes, false) :=
    hcarries.decode _ (by omega)
  unfold Incoming.accept Incoming.store Incoming.stored Incoming.combine
    Incoming.collect
  dsimp only
  rw [haddr, hdecode, if_neg (by simp; omega)]
  by_cases hempty : bytes.length = 0
  · rw [if_pos hempty, if_pos hempty, if_neg fun h => h.1 hempty]
    rfl
  · rw [if_neg hempty, if_neg hempty]
    simp only [Bool.and_eq_true, ne_eq, hempty, not_false_eq_true, true_and]
    rfl

theorem Incoming.mark_sizes (c : Incoming) (first last : ℤ) :
    (c.mark first last).ndata = c.ndata ∧ (c.mark first last).nbytes = c.nbytes ∧
      (c.mark first last).bidirectional = c.bidirectional := by
  unfold Incoming.mark
  split
  · exact ⟨rfl, rfl, rfl⟩
  split
  · exact ⟨rfl, rfl, rfl⟩
  · exact ⟨rfl, rfl, rfl⟩

theorem Incoming.collect_sizes (c : Incoming) (flags : DataFlags) (start : ℤ)
    (bytes : List UInt8) :
    (c.collect flags start bytes).ndata = c.ndata ∧
      (c.collect flags start bytes).nbytes = c.nbytes ∧
      (c.collect flags start bytes).bidirectional = c.bidirectional := by
  unfold Incoming.collect
  split
  · exact ⟨rfl, rfl, rfl⟩
  · exact Incoming.mark_sizes _ _ _

theorem Incoming.collect_data
    (c : Incoming) (flags : DataFlags) {start : ℤ} {bytes : List UInt8}
    (hsome : bytes.length ≠ 0) (hin : start < c.ndata) :
    (c.collect flags start bytes).hasNewData = true ∧
      (c.collect flags start bytes).newStart =
        (if c.hasNewData then min start c.newStart else start) ∧
      (c.collect flags start bytes).newEnd =
        (if c.hasNewData then max (start + bytes.length - 1) c.newEnd
          else start + bytes.length - 1) := by
  have hout : ¬(c.put flags start bytes).ndata ≤ start := not_le.mpr hin
  unfold Incoming.collect Incoming.mark
  rw [if_neg hsome, if_neg hout]
  change (if c.hasNewData = true then _ else _ : Incoming).hasNewData = true ∧
    (if c.hasNewData = true then _ else _ : Incoming).newStart = _ ∧
    (if c.hasNewData = true then _ else _ : Incoming).newEnd = _
  cases hnew : c.hasNewData with
  | true => exact ⟨hnew, rfl, rfl⟩
  | false => exact ⟨rfl, rfl, rfl⟩

/-- Change bits, and empty frames, leave the range of new data as it is. -/
theorem Incoming.collect_rest
    (c : Incoming) (flags : DataFlags) {start : ℤ} {bytes : List UInt8}
    (hrest : bytes.length = 0 ∨ c.ndata ≤ start) :
    (c.collect flags start bytes).hasNewData = c.hasNewData ∧
      (c.collect flags start bytes).newStart = c.newStart ∧
      (c.collect flags start bytes).newEnd = c.newEnd := by
  unfold Incoming.collect
  split
  · exact ⟨rfl, rfl, rfl⟩
  next hsome =>
    have hout : (c.put flags start bytes).ndata ≤ start := hrest.resolve_left hsome
    unfold Incoming.mark
    rw [if_pos hout]
    exact ⟨rfl, rfl, rfl⟩

theorem Incoming.Collects.collect
    {c : Incoming} {range : ℤ × ℕ} (h : c.Collects range) (flags : DataFlags)
    (start : ℤ) (bytes : List UInt8) :
    (c.collect flags start bytes).Collects range := by
  intro i hlo hhi
  obtain ⟨hnew, hi⟩ := h i hlo hhi
  obtain ⟨hndata, -, hmode⟩ := c.collect_sizes flags start bytes
  rw [hndata, hmode]
  by_cases hrest : bytes.length = 0 ∨ c.ndata ≤ start
  · obtain ⟨hnew', hstart', hend'⟩ := c.collect_rest flags hrest
    rw [hnew', hstart', hend']
    exact ⟨hnew, hi⟩
  · rw [not_or, not_le] at hrest
    obtain ⟨hnew', hstart', hend'⟩ :=
      c.collect_data flags hrest.1 hrest.2
    rw [hnew, if_pos rfl] at hstart' hend'
    refine ⟨hnew', ?_⟩
    rcases hi with ⟨hin, hi⟩ | ⟨hout, hbidir, hi⟩
    · left
      omega
    · right
      exact ⟨hout, hbidir, by omega⟩

structure SnapshotPhase.Stored
    (sync : SynchronizedSourceBuffer) (c : Incoming) (complete : Bool)
    (bytes : List UInt8) (s : Incoming) : Prop where
  start : 0 ≤ sync.startAddr
  room : sync.startAddr + bytes.length ≤ c.nbytes
  fit : sync.startAddr < c.ndata → sync.startAddr + bytes.length ≤ c.ndata
  collects : s.Collects (sync.startAddr, bytes.length)
  goesOn : complete = false → SnapshotPhase (sync.advance bytes.length) s
  ends : complete = true → (sync.advance bytes.length).used = false
  empty : complete = true → bytes.length = 0 → s.hasNewData = false

theorem SnapshotPhase.store_data
    {sync : SynchronizedSourceBuffer} {c : Incoming} {flags : DataFlags}
    {bytes : List UInt8} {first : ℤ} (hsize : c.HasSize n bidirectional)
    (hlength : bytes.length ≤ (sync.endAddr - sync.startAddr + 1).toNat)
    (hused : sync.used = true)
    (hrange : 0 ≤ first ∧ first ≤ sync.startAddr ∧ sync.endAddr < c.ndata)
    (hmore : sync.startAddr ≤ sync.endAddr ∨
      first = 0 ∧ sync.startAddr = 0 ∧ sync.endAddr = -1)
    (hbits : sync.bidirRangeSet = true →
      sync.bidirectional = true ∧
        sync.bidirStartAddr = c.ndata + first / 8 ∧
        sync.bidirEndAddr = c.ndata + sync.endAddr / 8)
    (hasNew : c.hasNewData = decide (first < sync.startAddr))
    (hnewRange : first < sync.startAddr →
      c.newStart = first ∧ c.newEnd = sync.startAddr - 1) :
    SnapshotPhase.Stored sync c
      (decide (sync.endAddr < sync.startAddr + bytes.length) &&
        !sync.bidirRangeSet) bytes (c.collect flags sync.startAddr bytes) := by
  obtain ⟨hfirst, hle, hend⟩ := hrange
  have hndata := hsize.ndata
  have hnbytes := hsize.nbytes
  have hpos := hsize.size.1
  have hroom : sync.startAddr + bytes.length ≤ c.ndata := by omega
  obtain ⟨hndata', -, hmode'⟩ := c.collect_sizes flags sync.startAddr bytes
  -- After the frame the new data runs from the first byte to the last stored one.
  have hcollect : (c.collect flags sync.startAddr bytes).hasNewData =
        decide (first < sync.startAddr + bytes.length) ∧
      (first < sync.startAddr + bytes.length →
        (c.collect flags sync.startAddr bytes).newStart = first ∧
          (c.collect flags sync.startAddr bytes).newEnd =
            sync.startAddr + bytes.length - 1) := by
    by_cases hempty : bytes.length = 0
    · obtain ⟨h1, h2, h3⟩ := @Incoming.collect_rest c flags sync.startAddr bytes
        (.inl hempty)
      rw [h1, h2, h3, hempty, hasNew]
      simp only [Nat.cast_zero, Int.add_zero]
      exact ⟨trivial, hnewRange⟩
    · have hin : sync.startAddr < c.ndata := by omega
      obtain ⟨h1, h2, h3⟩ := c.collect_data flags hempty hin
      rw [h1, h2, h3, hasNew]
      refine ⟨(decide_eq_true (by omega)).symm, fun _ => ?_⟩
      by_cases hfirst' : first < sync.startAddr
      · obtain ⟨h4, h5⟩ := hnewRange hfirst'
        rw [decide_eq_true hfirst', if_pos rfl, if_pos rfl, h4, h5,
          min_eq_right hle, max_eq_left (by omega)]
        exact ⟨rfl, rfl⟩
      · rw [decide_eq_false hfirst', if_neg Bool.false_ne_true,
          if_neg Bool.false_ne_true]
        exact ⟨by omega, rfl⟩
  generalize c.collect flags sync.startAddr bytes = s at *
  obtain ⟨hnew, hnewRange'⟩ := hcollect
  exact
    { start := by omega
      room := by
        rw [hnbytes]
        unfold transferBytes
        split <;> omega
      fit := fun _ => hroom
      collects := fun i hlo hhi => by
        dsimp only at hlo hhi
        obtain ⟨h1, h2⟩ := hnewRange' (by omega)
        refine ⟨by rw [hnew]; exact decide_eq_true (by omega), .inl ?_⟩
        rw [hndata', h1, h2]
        omega
      goesOn := fun hmoreFrames => by
        unfold SynchronizedSourceBuffer.advance
        by_cases hdone : sync.endAddr < sync.startAddr + bytes.length
        · have hset : sync.bidirRangeSet = true := by
            rw [decide_eq_true hdone, Bool.true_and] at hmoreFrames
            simpa using hmoreFrames
          obtain ⟨hbidir, hbitStart, hbitEnd⟩ := hbits hset
          rw [if_pos hdone, if_pos hset]
          apply SnapshotPhase.bits first sync.endAddr
          · exact hused
          · exact hbidir
          · rfl
          · exact ⟨hfirst, by omega⟩
          · rw [hndata']
            exact ⟨hbitStart.ge, hbitEnd⟩
          · dsimp only
            rw [hbitStart, hbitEnd]
            omega
          · rw [hnew]
            apply decide_eq_decide.mpr
            omega
          · intro hsome
            obtain ⟨h1, h2⟩ := hnewRange' (by omega)
            exact ⟨h1, by omega⟩
        · rw [if_neg hdone]
          apply SnapshotPhase.data first
          · exact hused
          · exact ⟨hfirst, by dsimp only; omega, by dsimp only; omega⟩
          · left
            dsimp only
            omega
          · rw [hndata']
            exact hbits
          · exact hnew
          · exact hnewRange'
      ends := fun hcomplete => by
        rw [Bool.and_eq_true, decide_eq_true_eq, Bool.not_eq_true'] at hcomplete
        unfold SynchronizedSourceBuffer.advance
        rw [if_pos hcomplete.1, hcomplete.2]
        rfl
      empty := fun hcomplete hempty => by
        rw [Bool.and_eq_true, decide_eq_true_eq] at hcomplete
        rw [hnew]
        apply decide_eq_false
        omega }

theorem SnapshotPhase.store_bits
    {sync : SynchronizedSourceBuffer} {c : Incoming} {flags : DataFlags}
    {bytes : List UInt8} {first last : ℤ} (hsize : c.HasSize n bidirectional)
    (hmode : sync.bidirectional = bidirectional)
    (hlength : bytes.length ≤ (sync.endAddr - sync.startAddr + 1).toNat)
    (hused : sync.used = true) (hbidir : sync.bidirectional = true)
    (hunset : sync.bidirRangeSet = false) (hrange : 0 ≤ first ∧ last < c.ndata)
    (hbitRange : c.ndata + first / 8 ≤ sync.startAddr ∧
      sync.endAddr = c.ndata + last / 8)
    (hmore : first ≤ last ∧ sync.startAddr ≤ sync.endAddr ∨
      last < first ∧ sync.startAddr = sync.endAddr + 1)
    (hasNew : c.hasNewData = decide (first ≤ last))
    (hnewRange : first ≤ last → c.newStart = first ∧ c.newEnd = last) :
    SnapshotPhase.Stored sync c
      (decide (sync.endAddr < sync.startAddr + bytes.length) &&
        !sync.bidirRangeSet) bytes (c.collect flags sync.startAddr bytes) := by
  have hndata := hsize.ndata
  have hpos := hsize.size.1
  have hout : c.ndata ≤ sync.startAddr := by omega
  have hnbytes : c.nbytes = n + (n + 7) / 8 := by
    rw [hsize.nbytes, ← hmode, hbidir]
    rfl
  obtain ⟨hndata', -, hmode'⟩ := c.collect_sizes flags sync.startAddr bytes
  obtain ⟨hnew, hstart, hend⟩ :=
    @Incoming.collect_rest c flags sync.startAddr bytes (.inr hout)
  generalize c.collect flags sync.startAddr bytes = s at *
  rw [hunset, Bool.not_false, Bool.and_true]
  exact
    { start := by omega
      room := by omega
      fit := fun hin => absurd hin (not_lt.mpr hout)
      collects := fun i hlo hhi => by
        dsimp only at hlo hhi
        have hsome : first ≤ last := by omega
        obtain ⟨h1, h2⟩ := hnewRange hsome
        refine ⟨by rw [hnew, hasNew]; exact decide_eq_true hsome, .inr ?_⟩
        rw [hndata', hmode', hstart, hend, h1, h2, hsize.mode, ← hmode]
        exact ⟨by omega, hbidir, by omega, by omega⟩
      goesOn := fun hmoreFrames => by
        have hdone : ¬sync.endAddr < sync.startAddr + bytes.length :=
          of_decide_eq_false hmoreFrames
        unfold SynchronizedSourceBuffer.advance
        rw [if_neg hdone]
        apply SnapshotPhase.bits first last
        · exact hused
        · exact hbidir
        · exact hunset
        · rw [hndata']
          exact hrange
        · rw [hndata']
          exact ⟨by dsimp only; omega, hbitRange.2⟩
        · dsimp only
          omega
        · rw [hnew]
          exact hasNew
        · rw [hstart, hend]
          exact hnewRange
      ends := fun hcomplete => by
        unfold SynchronizedSourceBuffer.advance
        rw [if_pos (of_decide_eq_true hcomplete), hunset]
        rfl
      empty := fun hcomplete hempty => by
        have hdone := of_decide_eq_true hcomplete
        rw [hnew, hasNew]
        apply decide_eq_false
        omega }

theorem SnapshotPhase.store
    {sync : SynchronizedSourceBuffer} {c : Incoming} (flags : DataFlags)
    {bytes : List UInt8} (h : SnapshotPhase sync c)
    (hsize : c.HasSize n bidirectional) (hmode : sync.bidirectional = bidirectional)
    (hused : sync.used = true)
    (hlength : bytes.length ≤ (sync.endAddr - sync.startAddr + 1).toNat) :
    SnapshotPhase.Stored sync c
      (decide (sync.endAddr < sync.startAddr + bytes.length) &&
        !sync.bidirRangeSet) bytes (c.collect flags sync.startAddr bytes) := by
  cases h with
  | idle unused finished =>
      rw [hused] at unused
      contradiction
  | data first used range more bits hasNew newRange =>
      exact SnapshotPhase.store_data hsize hlength used range more bits hasNew newRange
  | bits first last used bidir unset range bitRange more hasNew newRange =>
      exact SnapshotPhase.store_bits hsize hmode hlength used bidir unset range
        bitRange more hasNew newRange

theorem Incoming.HasSize.bound {c : Incoming} (h : c.HasSize n bidirectional) :
    c.nbytes < 0x80000000 := by
  have hbound := h.size.2
  have hpos := h.size.1
  rw [h.nbytes]
  unfold transferBytes at hbound ⊢
  rw [if_pos rfl] at hbound
  split
  · exact hbound
  · omega

theorem Incoming.HasSize.congr {c c' : Incoming} (h : c.HasSize n bidirectional)
    (hndata : c'.ndata = c.ndata) (hmode : c'.bidirectional = c.bidirectional)
    (hnbytes : c'.nbytes = c.nbytes) : c'.HasSize n bidirectional where
  ndata := hndata.trans h.ndata
  mode := hmode.trans h.mode
  nbytes := hnbytes.trans h.nbytes
  size := h.size

theorem Incoming.Collects.congr {c c' : Incoming} {range : ℤ × ℕ}
    (h : c.Collects range) (hndata : c'.ndata = c.ndata)
    (hmode : c'.bidirectional = c.bidirectional) (hnew : c'.hasNewData = c.hasNewData)
    (hstart : c'.newStart = c.newStart) (hend : c'.newEnd = c.newEnd) :
    c'.Collects range := by
  intro i hlo hhi
  rw [hndata, hmode, hnew, hstart, hend]
  exact h i hlo hhi

theorem Frame.Carries.storedRange {frame : Frame} {start : ℤ} {bytes : List UInt8}
    {tbuf : TargetBuffer} (h : frame.Carries start bytes) (hstart : 0 ≤ start)
    (hroom : start + bytes.length ≤ tbuf.syncbuf.nbytes)
    (hbound : tbuf.syncbuf.nbytes < 0x80000000) :
    tbuf.storedRange frame = (start, bytes.length) := by
  have haddr : osInt frame.addr = start := by
    rw [h.addr]
    exact osInt_osUint hstart (by omega)
  have hmax : tbuf.syncbuf.maxNewdata start = tbuf.syncbuf.nbytes - start :=
    osInt_of_range (by omega) (by omega)
  unfold TargetBuffer.storedRange TargetBuffer.decoded
  rw [haddr, hmax, h.decode _ (by omega)]

/-! ## Runs -/

structure Follows (n : ℤ) (bidirectional : Bool) (sync : SynchronizedSourceBuffer)
    (tbuf : TargetBuffer) (ranges : List (ℤ × ℕ)) : Prop where
  wellFormed : tbuf.syncbuf.WellFormed
  size : tbuf.syncbuf.incoming.HasSize n bidirectional
  phase : SnapshotPhase sync tbuf.syncbuf.incoming
  collects : ∀ range ∈ ranges, tbuf.syncbuf.incoming.Collects range

/-- Taking over the pending data keeps a target buffer well formed. -/
theorem SynchronizedTargetBuffer.WellFormed.finishReceive
    {sync : SynchronizedTargetBuffer} (h : sync.WellFormed)
    (hused : sync.bufUsed = true) : sync.finishReceive.WellFormed where
  newRange := h.newRange
  bufRange := fun hpending => by simp [SynchronizedTargetBuffer.finishReceive] at hpending
  copied := fun i h0 hn hfresh => by
    obtain ⟨hlo, -, -⟩ := h.bufRange hused
    have hbuf : sync.finishReceive.buf i = sync.buf i := by
      change i < sync.ndata at hn
      unfold SynchronizedTargetBuffer.finishReceive
      dsimp only
      split
      · rw [clearRange_apply, if_neg (by omega)]
      · rfl
    rw [hbuf]
    exact h.copied i h0 hn hfresh

theorem Follows.receive
    {sync : SynchronizedSourceBuffer} {tbuf : TargetBuffer} {ranges : List (ℤ × ℕ)}
    (h : Follows n bidirectional sync tbuf ranges)
    (hused : tbuf.syncbuf.bufUsed = true) :
    Follows n bidirectional sync
      { tbuf with syncbuf := tbuf.syncbuf.finishReceive } ranges where
  wellFormed := h.wellFormed.finishReceive hused
  size := h.size
  phase := h.phase
  collects := h.collects

/-- A snapshot which has new data is completed by moving all of it. -/
theorem SynchronizedTargetBuffer.Completes.completed
    {before after : TargetBuffer} {marked : SynchronizedTargetBuffer}
    {ranges : List (ℤ × ℕ)}
    (h : marked.Completes after.syncbuf) (hmarked : marked.WellFormed)
    (hbuf : marked.buf = before.syncbuf.buf)
    (hpending : ∀ i, marked.Pending i ↔ before.syncbuf.Pending i)
    (hmode : marked.bidirectional = before.syncbuf.bidirectional)
    (hcollects : ∀ range ∈ ranges, marked.incoming.Collects range) :
    before.Completed after ranges := by
  obtain ⟨-, hndata, -⟩ := h.sizes
  have hmoved : ∀ i, 0 ≤ i → i < after.syncbuf.ndata →
      after.syncbuf.buf i = after.syncbuf.newdata i :=
    fun i h0 hn => h.wellFormed.copied i h0 hn fun hfresh => by
      have hnew := hfresh.1
      rw [h.finished] at hnew
      cases hnew
  exact
    { finished := h.finished
      moved := hmoved
      changeBits := fun range hrange i h0 hlo hhi hbit => by
        obtain ⟨-, hi⟩ := hcollects range hrange _ hlo hhi
        rw [hndata] at hbit hi ⊢
        rw [h.newdata] at hbit
        rcases hi with ⟨hin, -⟩ | ⟨-, hbidir, h1, h2⟩
        · change _ < marked.ndata at hin
          omega
        · change marked.ndata + marked.newdataStartAddr / 8 ≤ _ at h1
          change _ ≤ marked.ndata + marked.newdataEndAddr / 8 at h2
          rw [h.changeBits hbidir i h0, hbit, Bool.and_true, Bool.or_eq_true,
            decide_eq_true_eq]
          right
          omega
      pending := fun range hrange i hlo hhi hn hchanged => by
        obtain ⟨hnew, hi⟩ := hcollects range hrange i hlo hhi
        rw [hndata] at hn
        rcases hi with ⟨-, h1, h2⟩ | ⟨hout, -⟩
        · apply h.nowPending i ⟨hnew, h1, h2⟩
          rw [hmode, hbuf, ← h.newdata]
          exact hchanged
        · change marked.ndata ≤ i at hout
          omega
      stillPending := fun i hi => h.stillPending i ((hpending i).mpr hi)
      shrunk := fun hone i hi => by
        obtain ⟨first, last, hfirst, hlast, hlo, hhi⟩ :=
          h.shrunk (hmode.trans hone) i hi
        have hchanges : ∀ j, marked.Changes j → before.Changes after j := by
          intro j hj
          rcases hj with hwaits | ⟨hfresh, hdiff⟩
          · exact .inl ((hpending j).mp hwaits)
          · obtain ⟨h0, -, hn⟩ := hmarked.newRange hfresh.1
            have hj0 : 0 ≤ j := h0.trans hfresh.2.1
            have hjn : j < after.syncbuf.ndata := by
              rw [hndata]
              exact hfresh.2.2.trans_lt hn
            refine .inr ⟨hj0, hjn, ?_⟩
            rw [hmoved j hj0 hjn, h.newdata, ← hbuf]
            exact hdiff
        exact ⟨first, last, hchanges first hfirst, hchanges last hlast, hlo, hhi⟩ }

theorem Follows.store
    {sbuf sbuf' : SourceBuffer} {mblk : MemoryBlock} {con con' : Connection}
    {frame : Frame} {tbuf : TargetBuffer} {ranges : List (ℤ × ℕ)}
    (h : Follows n bidirectional sbuf.syncbuf tbuf ranges)
    (hmode : sbuf.syncbuf.bidirectional = bidirectional)
    (hused : sbuf.syncbuf.used = true)
    (hmake : makeDataFrame con mblk sbuf = some (con', sbuf', frame)) :
    (tbuf.storeFrame frame).1 = true ∧
      Follows n bidirectional sbuf'.syncbuf (tbuf.storeFrame frame).2
        (if frame.flags.syncComplete then []
          else ranges ++ [tbuf.storedRange frame]) ∧
      (frame.flags.syncComplete = true →
        tbuf.Completed (tbuf.storeFrame frame).2
          (ranges ++ [tbuf.storedRange frame])) := by
  obtain ⟨bytes, hlength, rfl, hcomplete, hdecode⟩ := makeDataFrame_bytes hmake
  obtain ⟨-, haddr⟩ := makeDataFrame_address hmake
  have hsize := h.size
  have hcarries : frame.Carries sbuf.syncbuf.startAddr bytes := ⟨haddr, hdecode⟩
  have hstored := h.phase.store frame.flags hsize hmode hused hlength
  rw [← hcomplete] at hstored
  have hbound := hsize.bound
  have haccept := Incoming.accept_carries hcarries hstored.start hstored.room hbound
    hstored.fit
  have hrange := hcarries.storedRange hstored.start hstored.room hbound
  have hcollects : ∀ range ∈ ranges ++ [tbuf.storedRange frame],
      (tbuf.syncbuf.incoming.collect frame.flags sbuf.syncbuf.startAddr
        bytes).Collects range := by
    intro range hmem
    rcases List.mem_append.mp hmem with hold | hlast
    · exact (h.collects range hold).collect _ _ _
    · rw [List.mem_singleton.mp hlast, hrange]
      exact hstored.collects
  obtain ⟨hndata, hnbytes, hbidir⟩ :=
    tbuf.syncbuf.incoming.collect_sizes frame.flags sbuf.syncbuf.startAddr bytes
  generalize tbuf.syncbuf.incoming.collect frame.flags sbuf.syncbuf.startAddr
    bytes = s at *
  have hsize' : s.HasSize n bidirectional := hsize.congr hndata hbidir hnbytes
  by_cases hends : bytes.length ≠ 0 ∧ frame.flags.syncComplete = true ∧
      s.hasNewData = true
  · -- The frame completes a snapshot which has new data.
    rw [if_pos hends] at haccept
    obtain ⟨haccepted, -, -, hincoming, hstores⟩ :=
      TargetBuffer.storeFrame_spec h.wellFormed haccept
    generalize (tbuf.storeFrame frame).2 = after at *
    generalize hout : [s.snapshot] = out at hstores
    cases hstores with
    | fresh => cases hout
    | complete marked hbuf hpending hsizes hnew hcompletes hwf =>
        have hjob := (List.cons.inj hout).1
        refine ⟨haccepted, ?_, fun _ => ?_⟩
        · rw [if_pos hends.2.1]
          exact
            { wellFormed := hcompletes.wellFormed
              size := by
                rw [hincoming]
                exact hsize'.congr rfl rfl rfl
              phase := .idle (hstored.ends hends.2.1) (by rw [hincoming])
              collects := fun range hmem => by cases hmem }
        · apply hcompletes.completed hwf hbuf hpending hsizes.2
          intro range hmem
          exact (hcollects range hmem).congr (hsizes.1.trans hndata.symm)
            (hsizes.2.trans hbidir.symm) (hnew.trans hends.2.2.symm)
            (congrArg Snapshot.first hjob).symm (congrArg Snapshot.last hjob).symm
  · rw [if_neg hends] at haccept
    obtain ⟨haccepted, -, -, hincoming, hstores⟩ :=
      TargetBuffer.storeFrame_spec h.wellFormed haccept
    generalize (tbuf.storeFrame frame).2 = after at *
    generalize hout : ([] : List Snapshot) = out at hstores
    cases hstores with
    | complete => cases hout
    | fresh hbuf hpending hwf =>
        -- A frame which ends a snapshot without new data has nothing to move.
        have hnone : frame.flags.syncComplete = true → s.hasNewData = false := by
          intro hcompleted
          by_cases hempty : bytes.length = 0
          · exact hstored.empty hcompleted hempty
          · simpa [hempty, hcompleted] using hends
        refine ⟨haccepted, ?_, ?_⟩
        · cases hcompleted : frame.flags.syncComplete with
          | true =>
              exact
                { wellFormed := hwf
                  size := hincoming ▸ hsize'
                  phase := .idle (hstored.ends hcompleted)
                    (hincoming ▸ hnone hcompleted)
                  collects := fun range hmem => by cases hmem }
          | false =>
              exact
                { wellFormed := hwf
                  size := hincoming ▸ hsize'
                  phase := hincoming ▸ hstored.goesOn hcompleted
                  collects := hincoming ▸ hcollects }
        · intro hcompleted
          have hfinished : after.syncbuf.hasNewData = false := by
            change after.syncbuf.incoming.hasNewData = false
            rw [hincoming]
            exact hnone hcompleted
          have hnothing : ∀ range ∈ ranges ++ [tbuf.storedRange frame], ∀ i,
              range.1 ≤ i → ¬i < range.1 + range.2 := by
            intro range hmem i hlo hhi
            have hsome := (hcollects range hmem i hlo hhi).1
            rw [hnone hcompleted] at hsome
            cases hsome
          exact
            { finished := hfinished
              moved := fun i h0 hn => hwf.copied i h0 hn fun hfresh => by
                have hsome := hfresh.1
                rw [hfinished] at hsome
                cases hsome
              changeBits := fun range hmem i _ hlo hhi =>
                absurd hhi (hnothing range hmem _ hlo)
              pending := fun range hmem i hlo hhi =>
                absurd hhi (hnothing range hmem i hlo)
              stillPending := fun i hi => (hpending i).mpr hi
              shrunk := fun _ i hi => by
                have hwaits : tbuf.Changes after i := .inl ((hpending i).mp hi)
                exact ⟨i, i, hwaits, hwaits, le_rfl, le_rfl⟩ }

theorem Follows.with_phase
    {sync sync' : SynchronizedSourceBuffer} {tbuf : TargetBuffer}
    {ranges : List (ℤ × ℕ)} (h : Follows n bidirectional sync tbuf ranges)
    (hphase : SnapshotPhase sync' tbuf.syncbuf.incoming) :
    Follows n bidirectional sync' tbuf ranges where
  wellFormed := h.wellFormed
  size := h.size
  phase := hphase
  collects := h.collects

theorem SourceBuffer.synchronize_mode (sbuf : SourceBuffer) (mblk : MemoryBlock) :
    (sbuf.synchronize mblk).syncbuf.bidirectional = sbuf.syncbuf.bidirectional := by
  unfold SourceBuffer.synchronize
  dsimp only
  split
  · rfl
  split
  · exact (SynchronizedSourceBuffer.load_sizes _ _ _ _).2.2.2
  split
  · exact (SynchronizedSourceBuffer.load_sizes _ _ _ _).2.2.2
  split
  · rfl
  · exact (SynchronizedSourceBuffer.load_sizes _ _ _ _).2.2.2

structure SourceBuffer.Generating
    (n : ℤ) (bidirectional : Bool) (mblk : MemoryBlock) (sbuf : SourceBuffer) :
    Prop where
  size : mblk.nbytes = n
  fits : sbuf.Fits n
  mode : sbuf.syncbuf.bidirectional = bidirectional

/-- The target buffer follows the source buffer through every run. -/
theorem Generates.follows
    {tbuf : TargetBuffer} {frames : List Frame} {mblk : MemoryBlock}
    {sbuf : SourceBuffer} (hwf : tbuf.syncbuf.WellFormed)
    (hsize : tbuf.syncbuf.incoming.HasSize n bidirectional)
    (hnew : tbuf.syncbuf.hasNewData = false)
    (h : Generates n bidirectional frames mblk sbuf) :
    sbuf.Generating n bidirectional mblk ∧
      ∀ {t : TargetBuffer} {ranges : List (ℤ × ℕ)},
        Receives tbuf frames t ranges →
          Follows n bidirectional sbuf.syncbuf t ranges := by
  induction h with
  | start hblock hfits hmode hunused =>
      refine ⟨⟨hblock, hfits, hmode⟩, fun {t ranges} hrun => ?_⟩
      generalize hnil : ([] : List Frame) = frames at hrun
      induction hrun with
      | start =>
          exact ⟨hwf, hsize, .idle hunused hnew, fun range hmem => by cases hmem⟩
      | store => simp at hnil
      | receive hrun hused ih => exact (ih hnil).receive hused
  | change h buf ih => exact ⟨⟨ih.1.size, ih.1.fits, ih.1.mode⟩, ih.2⟩
  | @invalidate frames mblk sbuf h first last hfirst hle hlast ih =>
      obtain ⟨buf, hbuf⟩ := sbuf.invalidate_syncbuf mblk first last
      refine ⟨⟨ih.1.size, ih.1.fits.invalidate mblk hfirst hle hlast, ?_⟩,
        fun hrun => ?_⟩
      · rw [hbuf]
        exact ih.1.mode
      · rw [hbuf]
        exact (ih.2 hrun).with_phase ((ih.2 hrun).phase.with_marks buf _)
  | keyframe h ih =>
      exact ⟨⟨ih.1.size, ih.1.fits.of_sizes ⟨rfl, rfl, rfl, rfl⟩ ih.1.fits.changed,
          ih.1.mode⟩,
        fun hrun => (ih.2 hrun).with_phase ((ih.2 hrun).phase.with_marks _ true)⟩
  | @synchronize frames mblk sbuf h ih =>
      obtain ⟨⟨hblock, hfits, hmode⟩, hfollows⟩ := ih
      refine ⟨⟨hblock, hfits.synchronize mblk, ?_⟩, fun {t ranges} hrun => ?_⟩
      · rw [sbuf.synchronize_mode mblk]
        exact hmode
      · have hold := hfollows hrun
        have hndata := hold.size.ndata
        apply hold.with_phase
        apply hold.phase.synchronize
        · rw [hndata]
          exact hfits
        · rw [hndata]
          exact hblock
        · rw [hndata]
          exact hold.size.size.1
  | @frame frames mblk sbuf sbuf' con con' frame h hused hmake ih =>
      obtain ⟨⟨hblock, hfits, hmode⟩, hfollows⟩ := ih
      obtain ⟨count, hsbuf⟩ := makeDataFrame_sbuf hmake
      have hsizes := sbuf.syncbuf.advance_sizes count
      refine ⟨⟨hblock, ?_, ?_⟩, fun {t ranges} hrun => ?_⟩
      · rw [hsbuf]
        exact hfits.of_sizes hsizes hfits.changed
      · rw [hsbuf]
        exact hsizes.2.2.2.trans hmode
      · generalize hall : frames ++ [frame] = all at hrun
        induction hrun with
        | start => simp at hall
        | store hrun haccept =>
            obtain ⟨rfl, hlast⟩ := List.append_inj' hall rfl
            obtain rfl := List.singleton_inj.mp hlast
            exact ((hfollows hrun).store hmode hused hmake).2.1
        | receive hrun hused ih => exact (ih hall).receive hused

/-- The last generated frame, and the source buffer which it was made from. -/
theorem Generates.last
    {frames : List Frame} {final : Frame} {mblk : MemoryBlock} {sbuf : SourceBuffer}
    (h : Generates n bidirectional (frames ++ [final]) mblk sbuf) :
    ∃ mblk sbuf sbuf' con con',
      Generates n bidirectional frames mblk sbuf ∧ sbuf.syncbuf.used = true ∧
        makeDataFrame con mblk sbuf = some (con', sbuf', final) := by
  generalize hall : frames ++ [final] = all at h
  induction h with
  | start => simp at hall
  | change _ _ ih => exact ih hall
  | invalidate _ _ _ _ ih => exact ih hall
  | keyframe _ ih => exact ih hall
  | synchronize _ ih => exact ih hall
  | frame h hused hmake ih =>
      obtain ⟨rfl, hlast⟩ := List.append_inj' hall rfl
      obtain rfl := List.singleton_inj.mp hlast
      exact ⟨_, _, _, _, _, h, hused, hmake⟩

theorem initializeTargetBuffer_wellFormed
    (link : ConnectionLink) (block : MemoryBlock) (remoteMblkId : ℤ)
    (bidirectional : Bool) :
    (initializeTargetBuffer link block remoteMblkId
      bidirectional).syncbuf.WellFormed where
  newRange := fun h => by cases h
  bufRange := fun h => by cases h
  copied := fun i _ hn _ => by
    change i < block.nbytes at hn
    unfold initializeTargetBuffer
    dsimp only
    rw [if_pos hn, if_pos hn]

/-- An accepted frame with `IOC_SYNC_COMPLETE` completes the snapshot: all data
of its frames is in the synchronized buffer, and what of it has changed waits
for `ioc_receive`. -/
theorem accepted_final_frame_completes
    {frames : List Frame} {final : Frame} {mblk : MemoryBlock} {sbuf : SourceBuffer}
    {t : TargetBuffer} {ranges : List (ℤ × ℕ)}
    (link : ConnectionLink) (block : MemoryBlock) (remoteMblkId : ℤ)
    (hsize : BlockSize block.nbytes)
    (hgen : Generates block.nbytes bidirectional (frames ++ [final]) mblk sbuf)
    (hrun : Receives (initializeTargetBuffer link block remoteMblkId bidirectional)
      frames t ranges)
    (hfinal : final.flags.syncComplete = true) :
    (t.storeFrame final).1 = true ∧
      t.Completed (t.storeFrame final).2 (ranges ++ [t.storedRange final]) := by
  obtain ⟨mblk, sbuf, sbuf', con, con', hgen, hused, hmake⟩ := hgen.last
  obtain ⟨hgenerating, hfollows⟩ := hgen.follows
    (initializeTargetBuffer_wellFormed link block remoteMblkId bidirectional)
    ⟨rfl, rfl, rfl, hsize⟩ rfl
  obtain ⟨haccepted, -, hcompleted⟩ :=
    (hfollows hrun).store hgenerating.mode hused hmake
  exact ⟨haccepted, hcompleted hfinal⟩

def oneZeroByte : MemoryBlock where
  mblkId := 20
  flags := ⟨false, true, false, false, false⟩
  nbytes := 1
  bufAllocated := true
  buf := fun _ => 0

/-- Four bytes, of which the first and the last are zero, and two frames with them. -/
def fourBytes : MemoryBlock :=
  { oneZeroByte with nbytes := 4, buf := fun i => if i = 1 ∨ i = 2 then 7 else 0 }

def fourByteFrame (addr : ℕ) (payload : List UInt8) (syncComplete : Bool) : Frame where
  frameNr := 1
  system := false
  flags := { deltaEncoded := false, compressed := false, syncComplete := syncComplete }
  mblkId := 21
  addr := addr
  payload := payload

theorem fourBytes_generated :
    ∃ mblk sbuf, Generates 4 false
      ([fourByteFrame 0 [0, 7] false] ++ [fourByteFrame 2 [7, 0] true]) mblk sbuf := by
  have hstart : Generates 4 false [] fourBytes
      (initializeSourceBuffer ⟨0, true⟩ fourBytes 21 false) :=
    .start rfl (initializeSourceBuffer_fits _ _ _ _) rfl rfl
  have hfirst : ∃ con' sbuf', makeDataFrame (serialSender 9) fourBytes
      ((initializeSourceBuffer ⟨0, true⟩ fourBytes 21 false).synchronize fourBytes) =
        some (con', sbuf', fourByteFrame 0 [0, 7] false) ∧ sbuf'.syncbuf.used = true ∧
      ∃ con'' sbuf'', makeDataFrame (serialSender 9) fourBytes sbuf' =
        some (con'', sbuf'', fourByteFrame 2 [7, 0] true) := ⟨_, _, rfl, rfl, _, _, rfl⟩
  obtain ⟨con', sbuf', hfirst, hused, con'', sbuf'', hfinal⟩ := hfirst
  exact ⟨_, _, .frame (.frame (.synchronize hstart) rfl hfirst) hused hfinal⟩

/-- Both frames change one byte, and only these two bytes wait for `ioc_receive`. -/
theorem accepted_final_frame_completes_fourBytes :
    ∃ (before after : TargetBuffer) (ranges : List (ℤ × ℕ)),
      before.Completed after ranges ∧ ranges = [(0, 2), (2, 2)] ∧
        after.syncbuf.bufStartAddr = 1 ∧ after.syncbuf.bufEndAddr = 2 := by
  obtain ⟨mblk, sbuf, hgen⟩ := fourBytes_generated
  have hrun : Receives
      (initializeTargetBuffer ⟨0, false⟩ { oneZeroByte with nbytes := 4 } 20 false)
      [fourByteFrame 0 [0, 7] false] _ _ := .store .start (by decide)
  exact ⟨_, _, _, (accepted_final_frame_completes ⟨0, false⟩ { oneZeroByte with nbytes := 4 } 20
    ⟨by decide, by decide⟩ hgen hrun rfl).2, by decide, by decide, by decide⟩

def zeroKeyframe : Frame where
  frameNr := 0
  system := false
  flags := { deltaEncoded := false, compressed := false, syncComplete := true }
  mblkId := 21
  addr := 0
  payload := [0]

theorem zeroKeyframe_generated :
    ∃ mblk sbuf, Generates 1 false ([] ++ [zeroKeyframe]) mblk sbuf := by
  have hstart : Generates 1 false [] oneZeroByte
      (initializeSourceBuffer ⟨0, true⟩ oneZeroByte 21 false) :=
    .start rfl (initializeSourceBuffer_fits _ _ _ _) rfl rfl
  have hmake : ∃ con' sbuf', makeDataFrame serialReader oneZeroByte
      ((initializeSourceBuffer ⟨0, true⟩ oneZeroByte 21 false).synchronize
        oneZeroByte) = some (con', sbuf', zeroKeyframe) := ⟨_, _, rfl⟩
  obtain ⟨con', sbuf', hmake⟩ := hmake
  exact ⟨_, _, .frame (.synchronize hstart) rfl hmake⟩

theorem storeFrame_zeroKeyframe :
    ((initializeTargetBuffer ⟨0, false⟩ oneZeroByte 20 false).storeFrame
        zeroKeyframe).1 = true ∧
      (initializeTargetBuffer ⟨0, false⟩ oneZeroByte 20 false).storedRange
        zeroKeyframe = (0, 1) ∧
      ((initializeTargetBuffer ⟨0, false⟩ oneZeroByte 20 false).storeFrame
        zeroKeyframe).2.syncbuf.bufUsed = false := by
  decide

/-- Received data which has not changed does not wait for `ioc_receive`. -/
theorem accepted_final_frame_does_not_make_all_pending :
    ¬∀ (n : ℤ) (bidirectional : Bool) (frames : List Frame) (final : Frame)
      (mblk block : MemoryBlock) (sbuf : SourceBuffer) (link : ConnectionLink)
      (remoteMblkId : ℤ) (t : TargetBuffer) (ranges : List (ℤ × ℕ)),
      BlockSize n → block.nbytes = n →
      Generates n bidirectional (frames ++ [final]) mblk sbuf →
      Receives (initializeTargetBuffer link block remoteMblkId bidirectional)
        frames t ranges →
      final.flags.syncComplete = true → (t.storeFrame final).1 = true →
      ∀ range ∈ ranges ++ [t.storedRange final], ∀ i,
        range.1 ≤ i → i < range.1 + range.2 → i < n →
          (t.storeFrame final).2.syncbuf.Pending i := by
  intro hclaim
  obtain ⟨mblk, sbuf, hgen⟩ := zeroKeyframe_generated
  obtain ⟨haccepted, hrange, hfree⟩ := storeFrame_zeroKeyframe
  have hpending := hclaim 1 false [] zeroKeyframe mblk oneZeroByte sbuf ⟨0, false⟩ 20
    _ [] ⟨by decide, by decide⟩ rfl hgen .start rfl
    haccepted (0, 1) (List.mem_singleton.mpr hrange.symm) 0
    (by decide) (by decide) (by decide)
  have hused := hpending.1
  rw [hfree] at hused
  cases hused

end Iocom
