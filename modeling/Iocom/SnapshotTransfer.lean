import Iocom.DataFrame
import Iocom.Lib.OrderedChannel

/-!
# Transfer of one snapshot after another

Frames of a source buffer reach the target buffer in order, so the sender's
view of a transfer can be compared with what the receiver will hold once the
frames on their way have been stored.  `Incoming` is the part of the target
buffer which storing frames depends on; `Transfers` states, for a drained
channel, how much of the snapshot in the sender's synchronization buffer the
receiver has.
-/

namespace Iocom

/-- The first `n` bytes of a memory. -/
def window (n : ℤ) (m : Mem) : Mem := fun i => if 0 ≤ i ∧ i < n then m i else 0

theorem window_eq_iff {n : ℤ} {a b : Mem} :
    window n a = window n b ↔ ∀ i, 0 ≤ i → i < n → a i = b i := by
  constructor
  · intro heq i h0 hn
    have := congrFun heq i
    simpa [window, h0, hn] using this
  · intro hcells
    funext i
    unfold window
    split
    · rename_i hi
      exact hcells i hi.1 hi.2
    · rfl

/-- The change bits which are sent along with the data range `first .. last`:
whole bytes of bits. -/
def marksIn (m : Mem) (n first last : ℤ) : ℤ → Bool := fun i =>
  decide (0 ≤ i ∧ i < n) && decide (first / 8 ≤ i / 8 ∧ i / 8 ≤ last / 8) &&
    changeBit m n i

theorem marksIn_congr {a b : Mem} {n first last : ℤ}
    (hbits : ∀ k, n + first / 8 ≤ k → k ≤ n + last / 8 → a k = b k) :
    marksIn a n first last = marksIn b n first last := by
  funext i
  unfold marksIn
  by_cases hrange : first / 8 ≤ i / 8 ∧ i / 8 ≤ last / 8
  · unfold changeBit
    rw [hbits (n + i / 8) (by omega) (by omega)]
  · simp [hrange]

/-- A snapshot of a memory block, with the range of bytes which are sent and
the bytes which are marked as changed in a bidirectional transfer. -/
structure Snapshot where
  data : Mem
  first : ℤ
  last : ℤ
  marks : ℤ → Bool

/-- The part of a target buffer which storing frames depends on. -/
structure Incoming where
  nbytes : ℤ
  ndata : ℤ
  bidirectional : Bool
  newdata : Mem
  hasNewData : Bool
  newStart : ℤ
  newEnd : ℤ

def SynchronizedTargetBuffer.incoming (sync : SynchronizedTargetBuffer) :
    Incoming where
  nbytes := sync.nbytes
  ndata := sync.ndata
  bidirectional := sync.bidirectional
  newdata := sync.newdata
  hasNewData := sync.hasNewData
  newStart := sync.newdataStartAddr
  newEnd := sync.newdataEndAddr

def Incoming.snapshot (c : Incoming) : Snapshot where
  data := window c.ndata c.newdata
  first := c.newStart
  last := c.newEnd
  marks := fun i =>
    c.bidirectional && marksIn c.newdata c.ndata c.newStart c.newEnd i

def Incoming.mark (c : Incoming) (first last : ℤ) : Incoming :=
  if c.ndata ≤ first then c
  else if c.hasNewData then
    { c with newStart := min first c.newStart, newEnd := max last c.newEnd }
  else { c with newStart := first, newEnd := last, hasNewData := true }

def Incoming.decode (c : Incoming) (addr : ℤ) (data : List UInt8)
    (flags : DataFlags) : List UInt8 × Bool :=
  uncompress data (c.nbytes - addr).toNat flags.compressed

def Incoming.combine (c : Incoming) (addr : ℤ) (data : List UInt8)
    (flags : DataFlags) : Incoming :=
  { c with
    newdata := Segment.combineAt flags.combine c.newdata addr
      (c.decode addr data flags).1 }

def Incoming.stored (c : Incoming) (addr : ℤ) (data : List UInt8)
    (flags : DataFlags) : Incoming :=
  (c.combine addr data flags).mark addr
    (addr + (c.decode addr data flags).1.length - 1)

/-- Storing a frame which stays within the data or within the change bits; the
output is the snapshot which the frame completes. -/
def Incoming.store (c : Incoming) (addr : ℤ) (data : List UInt8)
    (flags : DataFlags) : Option (Incoming × List Snapshot) :=
  let decoded := c.decode addr data flags
  let stored := c.stored addr data flags
  if addr < 0 ∨ c.nbytes < addr ∨ 0x80000000 ≤ c.nbytes ∨ decoded.2 = true ∨
      (addr < c.ndata ∧ c.ndata < addr + decoded.1.length) then none
  else if decoded.1.length = 0 then some (c.combine addr data flags, [])
  else if flags.syncComplete && stored.hasNewData then
    some ({ stored with hasNewData := false }, [stored.snapshot])
  else some (stored, [])

def Incoming.accept (c : Incoming) (frame : Frame) :
    Option (Incoming × List Snapshot) :=
  c.store (osInt frame.addr) frame.payload frame.flags

/-! ## Storing a frame in the target buffer -/

theorem SynchronizedTargetBuffer.incoming_invalidate
    (sync : SynchronizedTargetBuffer) (first last : ℤ) :
    (sync.invalidate first last).incoming = sync.incoming.mark first last := by
  unfold SynchronizedTargetBuffer.invalidate Incoming.mark
  by_cases hbits : sync.ndata ≤ first
  · simp [hbits, SynchronizedTargetBuffer.incoming]
  · cases hnew : sync.hasNewData <;>
      simp [hbits, hnew, SynchronizedTargetBuffer.incoming]

theorem SynchronizedTargetBuffer.incoming_synchronize
    (sync : SynchronizedTargetBuffer) :
    sync.synchronize.incoming = { sync.incoming with hasNewData := false } := by
  cases hnew : sync.hasNewData with
  | false =>
      simp [SynchronizedTargetBuffer.synchronize, hnew,
        SynchronizedTargetBuffer.incoming]
  | true =>
      by_cases hempty : sync.newPart.2 < sync.newPart.1
      · simp [SynchronizedTargetBuffer.synchronize, hnew, hempty,
          SynchronizedTargetBuffer.incoming]
      · cases hused : sync.bufUsed <;>
          simp [SynchronizedTargetBuffer.synchronize, hnew, hempty, hused,
            SynchronizedTargetBuffer.incoming]

/-- What storing an acceptable frame does to the rest of the target buffer. -/
inductive SynchronizedTargetBuffer.Stores
    (sync sync' : SynchronizedTargetBuffer) : List Snapshot → Prop
  | fresh
      (hbuf : sync'.buf = sync.buf)
      (hpending : ∀ i, sync'.Pending i ↔ sync.Pending i)
      (hwf : sync'.WellFormed) :
      sync.Stores sync' []
  | complete (marked : SynchronizedTargetBuffer)
      (hbuf : marked.buf = sync.buf)
      (hpending : ∀ i, marked.Pending i ↔ sync.Pending i)
      (hsizes : marked.ndata = sync.ndata ∧
        marked.bidirectional = sync.bidirectional)
      (hnew : marked.hasNewData = true)
      (hcompletes : marked.Completes sync')
      (hwf : marked.WellFormed) :
      sync.Stores sync' [marked.incoming.snapshot]

theorem SynchronizedTargetBuffer.WellFormed.combine
    {sync : SynchronizedTargetBuffer} (hwf : sync.WellFormed)
    (f : UInt8 → UInt8 → UInt8) {addr : ℤ} {xs : List UInt8}
    (haddr : 0 ≤ addr) (hxs : xs ≠ [])
    (hfit : addr < sync.ndata → addr + xs.length ≤ sync.ndata) :
    ({ sync with newdata := Segment.combineAt f sync.newdata addr xs }.invalidate
      addr (addr + xs.length - 1)).WellFormed := by
  have hlen : 0 < xs.length := List.length_pos_iff.mpr hxs
  have hout : ∀ i, ¬(addr ≤ i ∧ i ≤ addr + xs.length - 1) →
      Segment.combineAt f sync.newdata addr xs i = sync.newdata i := by
    intro i hi
    exact Segment.combineAt_of_outside f sync.newdata addr xs (by omega)
  unfold SynchronizedTargetBuffer.invalidate
  split
  · rename_i hbits
    exact
      { newRange := hwf.newRange
        bufRange := hwf.bufRange
        copied := fun i h0 hn hfresh => by
          rw [hwf.copied i h0 hn hfresh]
          exact (hout i (by dsimp only at hn hbits; omega)).symm }
  rename_i hdata
  have hfits := hfit (not_le.mp hdata)
  split
  · rename_i hnew
    have hrange := hwf.newRange hnew
    exact
      { newRange := fun _ => by dsimp only; omega
        bufRange := hwf.bufRange
        copied := fun i h0 hn hfresh => by
          have hold : ¬sync.Fresh i := by
            intro hi
            apply hfresh
            obtain ⟨-, h1, h2⟩ := hi
            exact ⟨hnew, by dsimp only; omega, by dsimp only; omega⟩
          rw [hwf.copied i h0 hn hold]
          refine (hout i fun hi => hfresh ⟨hnew, ?_, ?_⟩).symm <;>
            dsimp only <;> omega }
  · rename_i hnew
    exact
      { newRange := fun _ => by dsimp only; omega
        bufRange := hwf.bufRange
        copied := fun i h0 hn hfresh => by
          have hold : ¬sync.Fresh i := fun hi => hnew hi.1
          rw [hwf.copied i h0 hn hold]
          exact (hout i fun hi => hfresh ⟨rfl, hi⟩).symm }

theorem TargetBuffer.storeDataFrame_spec
    {tbuf : TargetBuffer} {addr : ℤ} {data : List UInt8} {flags : DataFlags}
    {c : Incoming} {out : List Snapshot}
    (hwf : tbuf.syncbuf.WellFormed)
    (hstore : tbuf.syncbuf.incoming.store addr data flags = some (c, out)) :
    (tbuf.storeDataFrame addr data flags).1 = true ∧
      (tbuf.storeDataFrame addr data flags).2.remoteMblkId = tbuf.remoteMblkId ∧
      (tbuf.storeDataFrame addr data flags).2.clink = tbuf.clink ∧
      (tbuf.storeDataFrame addr data flags).2.syncbuf.incoming = c ∧
      tbuf.syncbuf.Stores (tbuf.storeDataFrame addr data flags).2.syncbuf out := by
  unfold Incoming.store at hstore
  dsimp only at hstore
  split at hstore
  · contradiction
  rename_i hguard
  have hdec : tbuf.syncbuf.incoming.decode addr data flags =
      uncompress data (tbuf.syncbuf.nbytes - addr).toNat flags.compressed := rfl
  have hnbytes : tbuf.syncbuf.incoming.nbytes = tbuf.syncbuf.nbytes := rfl
  have hndata : tbuf.syncbuf.incoming.ndata = tbuf.syncbuf.ndata := rfl
  rw [hnbytes, hndata] at hguard
  simp only [not_or, not_lt, not_and, Bool.not_eq_true] at hguard
  obtain ⟨haddr, hbound, hsize, hgood, hfit⟩ := hguard
  have hmax : tbuf.syncbuf.maxNewdata addr = tbuf.syncbuf.nbytes - addr :=
    osInt_of_range (by omega) (by omega)
  unfold TargetBuffer.storeDataFrame
  dsimp only
  rw [hmax, if_neg (by omega), ← hdec, if_neg (by simp [hgood])]
  by_cases hempty : (tbuf.syncbuf.incoming.decode addr data flags).1.length = 0
  · rw [if_pos hempty] at hstore ⊢
    simp only [Option.some.injEq, Prod.mk.injEq] at hstore
    obtain ⟨rfl, rfl⟩ := hstore
    have hnil : (tbuf.syncbuf.incoming.decode addr data flags).1 = [] :=
      List.length_eq_zero_iff.mp hempty
    have hsame : Segment.combineAt flags.combine tbuf.syncbuf.newdata
        addr [] = tbuf.syncbuf.newdata := by
      funext i
      exact Segment.combineAt_of_outside _ _ _ _ (by simp; omega)
    refine ⟨rfl, rfl, rfl, rfl, ?_⟩
    rw [hnil, hsame]
    exact .fresh rfl (fun _ => Iff.rfl) hwf
  rw [if_neg hempty] at hstore ⊢
  have hxs : (tbuf.syncbuf.incoming.decode addr data flags).1 ≠ [] := by
    intro hnil
    exact hempty (by rw [hnil]; rfl)
  have hmarked := hwf.combine flags.combine haddr hxs (fun h => hfit h)
  have hincoming := SynchronizedTargetBuffer.incoming_invalidate
    { tbuf.syncbuf with
      newdata := Segment.combineAt flags.combine tbuf.syncbuf.newdata
        addr (tbuf.syncbuf.incoming.decode addr data flags).1 }
    addr (addr + (tbuf.syncbuf.incoming.decode addr data flags).1.length - 1)
  change _ = tbuf.syncbuf.incoming.stored addr data flags at hincoming
  have hrest := SynchronizedTargetBuffer.invalidate_rest
    { tbuf.syncbuf with
      newdata := Segment.combineAt flags.combine tbuf.syncbuf.newdata
        addr (tbuf.syncbuf.incoming.decode addr data flags).1 }
    addr (addr + (tbuf.syncbuf.incoming.decode addr data flags).1.length - 1)
  generalize SynchronizedTargetBuffer.invalidate
    { tbuf.syncbuf with
      newdata := Segment.combineAt flags.combine tbuf.syncbuf.newdata
        addr (tbuf.syncbuf.incoming.decode addr data flags).1 }
    addr (addr + (tbuf.syncbuf.incoming.decode addr data flags).1.length - 1) =
      marked at *
  have hnew : (tbuf.syncbuf.incoming.stored addr data flags).hasNewData =
      marked.hasNewData := by
    rw [← hincoming]
    rfl
  rw [hnew, ← hincoming] at hstore
  obtain ⟨hbuf, hndata, hbidir, hused, hstart, hend⟩ := hrest
  have hpending : ∀ i, marked.Pending i ↔ tbuf.syncbuf.Pending i := by
    intro i
    simp only [SynchronizedTargetBuffer.Pending, hused, hstart, hend]
  cases hsync : flags.syncComplete with
  | false =>
      simp only [hsync, Bool.false_and, Bool.false_eq_true, if_false,
        Option.some.injEq, Prod.mk.injEq] at hstore
      obtain ⟨rfl, rfl⟩ := hstore
      exact ⟨rfl, rfl, rfl, rfl, .fresh hbuf hpending hmarked⟩
  | true =>
      cases hfresh : marked.hasNewData with
      | false =>
          have hidle : marked.synchronize = marked := by
            simp [SynchronizedTargetBuffer.synchronize, hfresh]
          simp only [hsync, hfresh, Bool.and_false, Bool.false_eq_true, if_false,
            Option.some.injEq, Prod.mk.injEq] at hstore
          obtain ⟨rfl, rfl⟩ := hstore
          rw [if_pos rfl, hidle]
          exact ⟨rfl, rfl, rfl, rfl, .fresh hbuf hpending hmarked⟩
      | true =>
          simp only [hsync, hfresh, Bool.and_self, if_true, Option.some.injEq,
            Prod.mk.injEq] at hstore
          obtain ⟨rfl, rfl⟩ := hstore
          rw [if_pos rfl]
          refine ⟨rfl, rfl, rfl, marked.incoming_synchronize, ?_⟩
          exact .complete marked hbuf hpending ⟨hndata, hbidir⟩ hfresh
            (marked.synchronize_completes hmarked hfresh) hmarked

theorem TargetBuffer.storeFrame_spec
    {tbuf : TargetBuffer} {frame : Frame} {c : Incoming} {out : List Snapshot}
    (hwf : tbuf.syncbuf.WellFormed)
    (haccept : tbuf.syncbuf.incoming.accept frame = some (c, out)) :
    (tbuf.storeFrame frame).1 = true ∧
      (tbuf.storeFrame frame).2.remoteMblkId = tbuf.remoteMblkId ∧
      (tbuf.storeFrame frame).2.clink = tbuf.clink ∧
      (tbuf.storeFrame frame).2.syncbuf.incoming = c ∧
      tbuf.syncbuf.Stores (tbuf.storeFrame frame).2.syncbuf out :=
  TargetBuffer.storeDataFrame_spec hwf haccept

theorem Incoming.store_sizes
    {c c' : Incoming} {addr : ℤ} {data : List UInt8} {flags : DataFlags}
    {out : List Snapshot}
    (haccept : c.store addr data flags = some (c', out)) :
    c'.ndata = c.ndata ∧ c'.bidirectional = c.bidirectional := by
  have hmark : ∀ (c : Incoming) first last,
      (c.mark first last).ndata = c.ndata ∧
        (c.mark first last).bidirectional = c.bidirectional := by
    intro c first last
    unfold Incoming.mark
    split
    · simp
    split <;> simp
  have hstored := hmark (c.combine addr data flags) addr
    (addr + (c.decode addr data flags).1.length - 1)
  unfold Incoming.store at haccept
  dsimp only at haccept
  split at haccept
  · contradiction
  split at haccept
  · simp only [Option.some.injEq, Prod.mk.injEq] at haccept
    obtain ⟨rfl, -⟩ := haccept
    exact ⟨rfl, rfl⟩
  split at haccept
  · simp only [Option.some.injEq, Prod.mk.injEq] at haccept
    obtain ⟨rfl, -⟩ := haccept
    exact hstored
  · simp only [Option.some.injEq, Prod.mk.injEq] at haccept
    obtain ⟨rfl, -⟩ := haccept
    exact hstored

/-! ## The sender and a drained channel -/

structure LinkSizes (c : Incoming) (sync : SynchronizedSourceBuffer) : Prop where
  hasBuf : sync.hasBuf = true
  ndata : sync.ndata = c.ndata
  bidirectional : sync.bidirectional = c.bidirectional
  nbytes : c.nbytes = transferBytes c.ndata c.bidirectional
  pos : 0 < c.ndata
  bound : c.nbytes < 0x80000000

/-- Data bytes are being sent: the receiver has the snapshot except for the
waiting range, and new data from `first` up to it. -/
structure DataPhase (c : Incoming) (sync : SynchronizedSourceBuffer)
    (first : ℤ) (job : Snapshot) : Prop where
  sizes : LinkSizes c sync
  used : sync.used = true
  range :
    0 ≤ first ∧ first ≤ sync.startAddr ∧ sync.startAddr ≤ sync.endAddr ∧
      sync.endAddr < c.ndata
  bidir : sync.bidirRangeSet = sync.bidirectional
  bidirRange :
    sync.bidirectional = true →
      sync.bidirStartAddr = c.ndata + first / 8 ∧
        sync.bidirEndAddr = c.ndata + sync.endAddr / 8
  sent :
    ∀ i, 0 ≤ i → i < c.ndata → ¬(sync.startAddr ≤ i ∧ i ≤ sync.endAddr) →
      c.newdata i = sync.buf i
  waiting :
    ∀ i, sync.startAddr ≤ i → i ≤ sync.endAddr →
      (if sync.isKeyframe then sync.delta i else c.newdata i + sync.delta i) =
        sync.buf i
  hasNew : c.hasNewData = decide (first < sync.startAddr)
  newRange :
    first < sync.startAddr → c.newStart = first ∧ c.newEnd = sync.startAddr - 1
  data : job.data = window c.ndata sync.buf
  jobRange : job.first = first ∧ job.last = sync.endAddr
  marks :
    job.marks = fun i =>
      sync.bidirectional && marksIn sync.delta c.ndata first sync.endAddr i

/-- The data bytes have been sent, the change bits of `first .. last` follow. -/
structure BitsPhase (c : Incoming) (sync : SynchronizedSourceBuffer)
    (first last : ℤ) (job : Snapshot) : Prop where
  sizes : LinkSizes c sync
  used : sync.used = true
  bidirectional : sync.bidirectional = true
  bidir : sync.bidirRangeSet = false
  range : 0 ≤ first ∧ first ≤ last ∧ last < c.ndata
  bitRange :
    c.ndata + first / 8 ≤ sync.startAddr ∧ sync.startAddr ≤ sync.endAddr ∧
      sync.endAddr = c.ndata + last / 8
  sent : ∀ i, 0 ≤ i → i < c.ndata → c.newdata i = sync.buf i
  sentBits :
    ∀ k, c.ndata + first / 8 ≤ k → k < sync.startAddr → c.newdata k = sync.delta k
  hasNew : c.hasNewData = true
  newRange : c.newStart = first ∧ c.newEnd = last
  data : job.data = window c.ndata sync.buf
  jobRange : job.first = first ∧ job.last = last
  marks : job.marks = marksIn sync.delta c.ndata first last

/-- Nothing is being sent; the receiver has what was sent last, unless the
first key frame has not been sent yet. -/
structure IdlePhase (c : Incoming) (sync : SynchronizedSourceBuffer) : Prop where
  sizes : LinkSizes c sync
  unused : sync.used = false
  finished : c.hasNewData = false
  equal :
    sync.makeKeyframe = true ∨
      ∀ i, 0 ≤ i → i < c.ndata → c.newdata i = sync.buf i

/-- How far the transfer is for a drained channel, with the snapshots which
the receiver has not completed. -/
inductive Transfers (c : Incoming) : List Snapshot → SynchronizedSourceBuffer → Prop
  | idle {sync : SynchronizedSourceBuffer} :
      IdlePhase c sync → Transfers c [] sync
  | data {sync : SynchronizedSourceBuffer} (first : ℤ) (job : Snapshot) :
      DataPhase c sync first job → Transfers c [job] sync
  | bits {sync : SynchronizedSourceBuffer} (first last : ℤ) (job : Snapshot) :
      BitsPhase c sync first last job → Transfers c [job] sync

/-- What a frame with `count` bytes of the delta does to the receiver. -/
structure SendsSegment (sync : SynchronizedSourceBuffer) (count : ℕ)
    (addr : ℤ) (data : List UInt8) (flags : DataFlags) : Prop where
  addr_eq : addr = sync.startAddr
  deltaEncoded :
    flags.deltaEncoded =
      (!sync.isKeyframe && decide (sync.startAddr < sync.ndata))
  syncComplete :
    flags.syncComplete =
      (decide (sync.endAddr < sync.startAddr + count) && !sync.bidirRangeSet)
  decode :
    ∀ dstSz, count ≤ dstSz →
      uncompress data dstSz flags.compressed =
        (Segment.segment sync.delta sync.startAddr count, false)

theorem Incoming.combine_newdata
    {c : Incoming} {sync : SynchronizedSourceBuffer} {count : ℕ} {addr : ℤ}
    {data : List UInt8} {flags : DataFlags}
    (hsends : SendsSegment sync count addr data flags)
    (hroom : addr + count ≤ c.nbytes) :
    c.decode addr data flags =
        (Segment.segment sync.delta sync.startAddr count, false) ∧
      ∀ i, (c.combine addr data flags).newdata i =
        if sync.startAddr ≤ i ∧ i < sync.startAddr + count then
          flags.combine (c.newdata i) (sync.delta i)
        else c.newdata i := by
  have hdecode : c.decode addr data flags =
      (Segment.segment sync.delta sync.startAddr count, false) :=
    hsends.decode _ (by omega)
  refine ⟨hdecode, fun i => ?_⟩
  unfold Incoming.combine
  dsimp only
  rw [hdecode, hsends.addr_eq]
  exact Segment.combineAt_segment _ _ _ _ _ _

/-- Storing a frame of the sender, by cases on whether it is empty and whether
it completes the snapshot. -/
theorem Incoming.store_segment
    {c : Incoming} {sync : SynchronizedSourceBuffer} {count : ℕ} {addr : ℤ}
    {data : List UInt8} {flags : DataFlags}
    (hsends : SendsSegment sync count addr data flags)
    (hstart : 0 ≤ addr) (hroom : addr + count ≤ c.nbytes)
    (hbound : c.nbytes < 0x80000000)
    (hfit : addr < c.ndata → addr + count ≤ c.ndata) :
    c.store addr data flags =
      if count = 0 then some (c.combine addr data flags, [])
      else
        let stored := (c.combine addr data flags).mark addr (addr + count - 1)
        if flags.syncComplete && stored.hasNewData then
          some ({ stored with hasNewData := false }, [stored.snapshot])
        else some (stored, []) := by
  obtain ⟨hdecode, -⟩ := c.combine_newdata hsends hroom
  have hlen : (c.decode addr data flags).1.length = count := by
    rw [hdecode]
    exact Segment.segment_length _ _ _
  unfold Incoming.store Incoming.stored
  dsimp only
  rw [hlen, hdecode, if_neg (by simp; omega)]

theorem Incoming.combine_zero
    {c : Incoming} {sync : SynchronizedSourceBuffer} {addr : ℤ}
    {data : List UInt8} {flags : DataFlags}
    (hsends : SendsSegment sync 0 addr data flags) (hroom : addr ≤ c.nbytes) :
    c.combine addr data flags = c := by
  obtain ⟨-, hnewdata⟩ := c.combine_newdata hsends (by simpa using hroom)
  have hsame : (c.combine addr data flags).newdata = c.newdata := by
    funext i
    rw [hnewdata i, if_neg (by omega)]
  unfold Incoming.combine at hsame ⊢
  dsimp only at hsame
  rw [hsame]

theorem DataPhase.send
    {c : Incoming} {sync : SynchronizedSourceBuffer} {first : ℤ} {job : Snapshot}
    {count : ℕ} {addr : ℤ} {data : List UInt8} {flags : DataFlags}
    (h : DataPhase c sync first job)
    (hsends : SendsSegment sync count addr data flags)
    (hcount : sync.startAddr + count ≤ sync.endAddr + 1) :
    ∃ c' out rest, c.store addr data flags = some (c', out) ∧
      [job] = out ++ rest ∧ Transfers c' rest (sync.advance count) := by
  obtain ⟨hfirst, hsent, hle, hend⟩ := h.range
  have hnbytes : c.ndata ≤ c.nbytes := by
    rw [h.sizes.nbytes]
    unfold transferBytes
    split <;> omega
  have haddr := hsends.addr_eq
  have hroom : addr + count ≤ c.nbytes := by omega
  have hstore := c.store_segment hsends (by omega) hroom h.sizes.bound (by omega)
  obtain ⟨-, hnewdata⟩ := c.combine_newdata hsends hroom
  by_cases hzero : count = 0
  · subst hzero
    rw [if_pos rfl, c.combine_zero hsends (by omega)] at hstore
    have hsame : sync.advance 0 = sync := by
      unfold SynchronizedSourceBuffer.advance
      rw [if_neg (by push_cast; omega)]
      simp
    exact ⟨c, [], [job], hstore, rfl, by rw [hsame]; exact .data first job h⟩
  rw [if_neg hzero] at hstore
  dsimp only at hstore
  have hdelta : flags.deltaEncoded = !sync.isKeyframe := by
    rw [hsends.deltaEncoded, h.sizes.ndata]
    simp [show sync.startAddr < c.ndata by omega]
  -- Every byte of the frame now holds the snapshot's value.
  have hvalue : ∀ i, 0 ≤ i → i < c.ndata →
      ¬(sync.startAddr + count ≤ i ∧ i ≤ sync.endAddr) →
      (c.combine addr data flags).newdata i = sync.buf i := by
    intro i h0 hn hout
    rw [hnewdata i]
    split
    · rename_i hin
      have := h.waiting i hin.1 (by omega)
      unfold DataFlags.combine
      rw [hdelta]
      cases hkey : sync.isKeyframe <;> simpa [hkey] using this
    · exact h.sent i h0 hn (by omega)
  have hwaiting : ∀ i, sync.startAddr + count ≤ i → i ≤ sync.endAddr →
      (if sync.isKeyframe then sync.delta i
        else (c.combine addr data flags).newdata i + sync.delta i) =
        sync.buf i := by
    intro i hlo hhi
    have hkeep : (c.combine addr data flags).newdata i = c.newdata i := by
      rw [hnewdata i, if_neg (by omega)]
    rw [hkeep]
    exact h.waiting i (by omega) hhi
  have hmark : (c.combine addr data flags).mark addr (addr + count - 1) =
      { c.combine addr data flags with
        newStart := first
        newEnd := sync.startAddr + count - 1
        hasNewData := true } := by
    unfold Incoming.mark
    have hnd : (c.combine addr data flags).ndata = c.ndata := rfl
    have hhas : (c.combine addr data flags).hasNewData = c.hasNewData := rfl
    rw [if_neg (by rw [hnd]; omega), hhas, h.hasNew]
    by_cases hnew : first < sync.startAddr
    · obtain ⟨hs, he⟩ := h.newRange hnew
      have hns : (c.combine addr data flags).newStart = first := hs
      have hne : (c.combine addr data flags).newEnd = sync.startAddr - 1 := he
      rw [if_pos (by simpa using hnew), hns, hne,
        show min addr first = first by omega,
        show max (addr + count - 1) (sync.startAddr - 1) =
          sync.startAddr + count - 1 by omega]
      simp [hnew]
    · rw [if_neg (by simpa using hnew), haddr,
        show sync.startAddr = first by omega]
  rw [hmark] at hstore
  by_cases hdone : sync.endAddr < sync.startAddr + count
  · cases hbidir : sync.bidirectional with
    | false =>
        have hset : sync.bidirRangeSet = false := by rw [h.bidir, hbidir]
        have hcomplete : flags.syncComplete = true := by
          rw [hsends.syncComplete]
          simp [hdone, hset]
        simp only [hcomplete, Bool.and_self, if_true] at hstore
        refine ⟨_, _, [], hstore, ?_, .idle ?_⟩
        · have hcb : c.bidirectional = false := by
            rw [← h.sizes.bidirectional, hbidir]
          have hjob : job = ⟨job.data, job.first, job.last, job.marks⟩ := rfl
          rw [hjob, h.data, h.marks, h.jobRange.1, h.jobRange.2]
          simp only [Incoming.snapshot, Incoming.combine, hbidir, hcb,
            Bool.false_and, List.append_nil, List.cons.injEq, Snapshot.mk.injEq,
            and_true, true_and]
          refine ⟨window_eq_iff.mpr fun i h0 hn =>
            (hvalue i h0 hn (by omega)).symm, by omega⟩
        · have hadv : sync.advance count =
              { sync with
                startAddr := sync.startAddr + count
                used := false } := by
            simp [SynchronizedSourceBuffer.advance, hdone, hset]
          rw [hadv]
          exact
            { sizes := ⟨h.sizes.hasBuf, h.sizes.ndata, h.sizes.bidirectional,
                h.sizes.nbytes, h.sizes.pos, h.sizes.bound⟩
              unused := rfl
              finished := rfl
              equal := .inr fun i h0 hn => hvalue i h0 hn (by omega) }
    | true =>
        have hset : sync.bidirRangeSet = true := by rw [h.bidir, hbidir]
        have hcomplete : flags.syncComplete = false := by
          rw [hsends.syncComplete]
          simp [hset]
        simp only [hcomplete, Bool.false_and, Bool.false_eq_true, if_false] at hstore
        obtain ⟨hbs, hbe⟩ := h.bidirRange hbidir
        have hadv : sync.advance count =
            { sync with
              startAddr := sync.bidirStartAddr
              endAddr := sync.bidirEndAddr
              bidirRangeSet := false } := by
          simp [SynchronizedSourceBuffer.advance, hdone, hset]
        refine ⟨_, [], [job], hstore, rfl, .bits first sync.endAddr job ?_⟩
        rw [hadv]
        exact
          { sizes := ⟨h.sizes.hasBuf, h.sizes.ndata, h.sizes.bidirectional,
              h.sizes.nbytes, h.sizes.pos, h.sizes.bound⟩
            used := h.used
            bidirectional := hbidir
            bidir := rfl
            range := ⟨hfirst, by omega, hend⟩
            bitRange := by
              refine ⟨?_, ?_, hbe⟩
              · dsimp only [Incoming.combine]
                omega
              · dsimp only
                omega
            sent := fun i h0 hn => hvalue i h0 hn (by omega)
            sentBits := fun k hlo hhi => by
              dsimp only [Incoming.combine] at hlo hhi
              omega
            hasNew := rfl
            newRange := ⟨rfl, by dsimp only; omega⟩
            data := h.data
            jobRange := h.jobRange
            marks := by
              rw [h.marks]
              simp [hbidir, Incoming.combine] }
  · have hcomplete : flags.syncComplete = false := by
      rw [hsends.syncComplete]
      simp [hdone]
    simp only [hcomplete, Bool.false_and, Bool.false_eq_true, if_false] at hstore
    have hadv : sync.advance count =
        { sync with startAddr := sync.startAddr + count } := by
      simp [SynchronizedSourceBuffer.advance, hdone]
    refine ⟨_, [], [job], hstore, rfl, .data first job ?_⟩
    rw [hadv]
    exact
      { sizes := ⟨h.sizes.hasBuf, h.sizes.ndata, h.sizes.bidirectional,
          h.sizes.nbytes, h.sizes.pos, h.sizes.bound⟩
        used := h.used
        range := by
          refine ⟨hfirst, ?_, ?_, hend⟩ <;> dsimp only <;> omega
        bidir := h.bidir
        bidirRange := h.bidirRange
        sent := fun i h0 hn hout => hvalue i h0 hn hout
        waiting := fun i hlo hhi => hwaiting i hlo hhi
        hasNew := by
          dsimp only
          rw [eq_comm, decide_eq_true_eq]
          omega
        newRange := fun _ => ⟨rfl, rfl⟩
        data := h.data
        jobRange := h.jobRange
        marks := h.marks }

theorem BitsPhase.send
    {c : Incoming} {sync : SynchronizedSourceBuffer} {first last : ℤ}
    {job : Snapshot} {count : ℕ} {addr : ℤ} {data : List UInt8}
    {flags : DataFlags}
    (h : BitsPhase c sync first last job)
    (hsends : SendsSegment sync count addr data flags)
    (hcount : sync.startAddr + count ≤ sync.endAddr + 1) :
    ∃ c' out rest, c.store addr data flags = some (c', out) ∧
      [job] = out ++ rest ∧ Transfers c' rest (sync.advance count) := by
  obtain ⟨hfirst, hle, hlast⟩ := h.range
  obtain ⟨hlo, hhi, hend⟩ := h.bitRange
  have hcb : c.bidirectional = true := by
    rw [← h.sizes.bidirectional, h.bidirectional]
  have hnbytes : c.nbytes = c.ndata + (c.ndata + 7) / 8 := by
    rw [h.sizes.nbytes, transferBytes, hcb, if_pos rfl]
  have haddr := hsends.addr_eq
  have hroom : addr + count ≤ c.nbytes := by omega
  have hstore := c.store_segment hsends (by omega) hroom h.sizes.bound (by omega)
  obtain ⟨-, hnewdata⟩ := c.combine_newdata hsends hroom
  by_cases hzero : count = 0
  · subst hzero
    rw [if_pos rfl, c.combine_zero hsends (by omega)] at hstore
    have hsame : sync.advance 0 = sync := by
      unfold SynchronizedSourceBuffer.advance
      rw [if_neg (by push_cast; omega)]
      simp
    exact ⟨c, [], [job], hstore, rfl, by rw [hsame]; exact .bits first last job h⟩
  rw [if_neg hzero] at hstore
  dsimp only at hstore
  have hplain : flags.deltaEncoded = false := by
    rw [hsends.deltaEncoded, h.sizes.ndata]
    simp [show ¬sync.startAddr < c.ndata by omega]
  have hvalue : ∀ i, 0 ≤ i → i < c.ndata →
      (c.combine addr data flags).newdata i = sync.buf i := by
    intro i h0 hn
    rw [hnewdata i, if_neg (by omega)]
    exact h.sent i h0 hn
  have hbits : ∀ k, c.ndata + first / 8 ≤ k → k < sync.startAddr + count →
      (c.combine addr data flags).newdata k = sync.delta k := by
    intro k hk hk'
    rw [hnewdata k]
    split
    · simp [DataFlags.combine, hplain]
    · exact h.sentBits k hk (by omega)
  have hmark : (c.combine addr data flags).mark addr (addr + count - 1) =
      c.combine addr data flags := by
    have hnd : (c.combine addr data flags).ndata = c.ndata := rfl
    unfold Incoming.mark
    rw [if_pos (by rw [hnd]; omega)]
  have hnew : (c.combine addr data flags).hasNewData = true := h.hasNew
  rw [hmark, hnew] at hstore
  by_cases hdone : sync.endAddr < sync.startAddr + count
  · have hcomplete : flags.syncComplete = true := by
      rw [hsends.syncComplete]
      simp [hdone, h.bidir]
    have hadv : sync.advance count =
        { sync with startAddr := sync.startAddr + count, used := false } := by
      simp [SynchronizedSourceBuffer.advance, hdone, h.bidir]
    simp only [hcomplete, Bool.and_self, if_true] at hstore
    refine ⟨_, _, [], hstore, ?_, .idle ?_⟩
    · have hjob : job = ⟨job.data, job.first, job.last, job.marks⟩ := rfl
      rw [hjob, h.data, h.marks, h.jobRange.1, h.jobRange.2]
      simp only [Incoming.snapshot, List.append_nil, List.cons.injEq,
        Snapshot.mk.injEq, and_true]
      refine ⟨?_, h.newRange.1.symm, h.newRange.2.symm, ?_⟩
      · exact window_eq_iff.mpr fun i h0 hn => (hvalue i h0 hn).symm
      · have hs : (c.combine addr data flags).newStart = first := h.newRange.1
        have he : (c.combine addr data flags).newEnd = last := h.newRange.2
        have hb : (c.combine addr data flags).bidirectional = true := hcb
        have hmarks : marksIn (c.combine addr data flags).newdata
            (c.combine addr data flags).ndata first last =
              marksIn sync.delta c.ndata first last :=
          marksIn_congr fun k hk hk' => hbits k hk (by
            have hnd : (c.combine addr data flags).ndata = c.ndata := rfl
            rw [hnd] at hk'
            omega)
        rw [hs, he, hb, hmarks]
        simp
    · rw [hadv]
      exact
        { sizes := ⟨h.sizes.hasBuf, h.sizes.ndata, h.sizes.bidirectional,
            h.sizes.nbytes, h.sizes.pos, h.sizes.bound⟩
          unused := rfl
          finished := rfl
          equal := .inr hvalue }
  · have hcomplete : flags.syncComplete = false := by
      rw [hsends.syncComplete]
      simp [hdone]
    have hadv : sync.advance count =
        { sync with startAddr := sync.startAddr + count } := by
      simp [SynchronizedSourceBuffer.advance, hdone]
    simp only [hcomplete, Bool.false_and, Bool.false_eq_true, if_false] at hstore
    refine ⟨_, [], [job], hstore, rfl, .bits first last job ?_⟩
    rw [hadv]
    exact
      { sizes := ⟨h.sizes.hasBuf, h.sizes.ndata, h.sizes.bidirectional,
          h.sizes.nbytes, h.sizes.pos, h.sizes.bound⟩
        used := h.used
        bidirectional := h.bidirectional
        bidir := h.bidir
        range := h.range
        bitRange := by
          refine ⟨?_, ?_, hend⟩
          · dsimp only [Incoming.combine]
            omega
          · dsimp only
            omega
        sent := hvalue
        sentBits := hbits
        hasNew := hnew
        newRange := h.newRange
        data := h.data
        jobRange := h.jobRange
        marks := h.marks }

theorem Transfers.send
    {c : Incoming} {jobs : List Snapshot} {con con' : Connection}
    {mblk : MemoryBlock} {sbuf sbuf' : SourceBuffer} {frame : Frame}
    (h : Transfers c jobs sbuf.syncbuf) (hused : sbuf.syncbuf.used = true)
    (hmake : makeDataFrame con mblk sbuf = some (con', sbuf', frame)) :
    ∃ c' out rest, c.accept frame = some (c', out) ∧ jobs = out ++ rest ∧
      Transfers c' rest sbuf'.syncbuf := by
  cases h with
  | idle h =>
      rw [h.unused] at hused
      contradiction
  | data first job h =>
      obtain ⟨hfirst, hsent, hle, hend⟩ := h.range
      have hnbytes : c.ndata ≤ c.nbytes := by
        rw [h.sizes.nbytes]
        unfold transferBytes
        have := h.sizes.pos
        split <;> omega
      have hbound := h.sizes.bound
      obtain ⟨count, hcount, rfl, haddr, hdelta, hcomplete, hdecode⟩ :=
        makeDataFrame_spec hmake h.sizes.hasBuf hle
      have hstart : osInt (osUint sbuf.syncbuf.startAddr) =
          sbuf.syncbuf.startAddr := osInt_osUint (by omega) (by omega)
      exact h.send ⟨by rw [haddr, hstart], hdelta, hcomplete, hdecode⟩ hcount
  | bits first last job h =>
      obtain ⟨hfirst, hle, hlast⟩ := h.range
      obtain ⟨hlo, hhi, hend⟩ := h.bitRange
      have hcb : c.bidirectional = true := by
        rw [← h.sizes.bidirectional, h.bidirectional]
      have hnbytes : c.nbytes = c.ndata + (c.ndata + 7) / 8 := by
        rw [h.sizes.nbytes, transferBytes, hcb, if_pos rfl]
      have hbound := h.sizes.bound
      obtain ⟨count, hcount, rfl, haddr, hdelta, hcomplete, hdecode⟩ :=
        makeDataFrame_spec hmake h.sizes.hasBuf hhi
      have hstart : osInt (osUint sbuf.syncbuf.startAddr) =
          sbuf.syncbuf.startAddr := osInt_osUint (by omega) (by omega)
      exact h.send ⟨by rw [haddr, hstart], hdelta, hcomplete, hdecode⟩ hcount

/-! ## Steps of the sender -/

theorem uInt8_add_sub (a b : UInt8) : a + (b - a) = b := by
  rw [UInt8.add_comm, UInt8.sub_add_cancel]

structure SynchronizedSourceBuffer.Loads
    (sync sync' : SynchronizedSourceBuffer) (mblk : MemoryBlock)
    (first last : ℤ) : Prop where
  hasBuf : sync'.hasBuf = sync.hasBuf
  ndata : sync'.ndata = sync.ndata
  bidirectional : sync'.bidirectional = sync.bidirectional
  makeKeyframe : sync'.makeKeyframe = sync.makeKeyframe
  isKeyframe : sync'.isKeyframe = sync.isKeyframe
  used : sync'.used = true
  range : sync'.startAddr = first ∧ sync'.endAddr = last
  bidir : sync'.bidirRangeSet = sync.bidirectional
  bidirRange :
    sync.bidirectional = true →
      sync'.bidirStartAddr = sync.ndata + first / 8 ∧
        sync'.bidirEndAddr = sync.ndata + last / 8
  buf :
    ∀ i, i < sync.ndata →
      sync'.buf i = if first ≤ i ∧ i ≤ last then mblk.buf i else sync.buf i
  delta : ∀ i, i < sync.ndata → sync'.delta i = sync.delta i
  sentBits :
    sync.bidirectional = true →
      marksIn sync'.delta sync.ndata first last =
        marksIn sync.buf sync.ndata first last
  clearedBits :
    sync.bidirectional = true →
      ∀ i, 0 ≤ i → i < sync.ndata →
        changeBit sync'.buf sync.ndata i =
          (changeBit sync.buf sync.ndata i &&
            !decide (first / 8 ≤ i / 8 ∧ i / 8 ≤ last / 8))

theorem SynchronizedSourceBuffer.load_spec
    (sync : SynchronizedSourceBuffer) (mblk : MemoryBlock) {first last : ℤ}
    (hbuf : sync.hasBuf = true) (hfirst : 0 ≤ first) (hlast : last < sync.ndata) :
    sync.Loads (sync.load mblk first last) mblk first last := by
  cases hbidir : sync.bidirectional with
  | false =>
      have hload : sync.load mblk first last =
          { sync with
            startAddr := first
            endAddr := last
            used := true
            bidirRangeSet := false
            buf := Segment.copyRange sync.buf mblk.buf first last } := by
        simp [SynchronizedSourceBuffer.load, hbuf, hbidir]
      rw [hload]
      exact
        { hasBuf := rfl
          ndata := rfl
          bidirectional := rfl
          makeKeyframe := rfl
          isKeyframe := rfl
          used := rfl
          range := ⟨rfl, rfl⟩
          bidir := hbidir.symm
          bidirRange := fun h => by simp [hbidir] at h
          buf := fun i _ => rfl
          delta := fun i _ => rfl
          sentBits := fun h => by simp [hbidir] at h
          clearedBits := fun h => by simp [hbidir] at h }
  | true =>
      have hload : sync.load mblk first last =
          { sync with
            startAddr := first
            endAddr := last
            used := true
            buf := clearRange (Segment.copyRange sync.buf mblk.buf first last)
              (sync.ndata + first / 8) (sync.ndata + last / 8)
            delta := Segment.copyRange sync.delta
              (Segment.copyRange sync.buf mblk.buf first last)
              (sync.ndata + first / 8) (sync.ndata + last / 8)
            bidirStartAddr := sync.ndata + first / 8
            bidirEndAddr := sync.ndata + last / 8
            bidirRangeSet := true } := by
        simp [SynchronizedSourceBuffer.load, hbuf, hbidir]
      rw [hload]
      exact
        { hasBuf := rfl
          ndata := rfl
          bidirectional := rfl
          makeKeyframe := rfl
          isKeyframe := rfl
          used := rfl
          range := ⟨rfl, rfl⟩
          bidir := hbidir.symm
          bidirRange := fun _ => ⟨rfl, rfl⟩
          buf := fun i hi => by
            dsimp only
            rw [clearRange_apply, if_neg (by omega), Segment.copyRange_apply]
          delta := fun i hi => by
            dsimp only
            rw [Segment.copyRange_apply, if_neg (by omega)]
          sentBits := fun _ => by
            refine marksIn_congr fun k hk hk' => ?_
            dsimp only
            rw [Segment.copyRange_apply, if_pos ⟨hk, hk'⟩,
              Segment.copyRange_apply, if_neg (by omega)]
          clearedBits := fun _ i h0 hn => by
            unfold changeBit
            dsimp only
            rw [clearRange_apply]
            by_cases hrange : first / 8 ≤ i / 8 ∧ i / 8 ≤ last / 8
            · rw [if_pos (by omega)]
              simp [hrange]
            · rw [if_neg (by omega), Segment.copyRange_apply, if_neg (by omega)]
              simp [hrange] }

theorem IdlePhase.load
    {c : Incoming} {sbuf : SourceBuffer} {mblk : MemoryBlock} {first last : ℤ}
    {delta : Mem} {sync' : SynchronizedSourceBuffer}
    (h : IdlePhase c sbuf.syncbuf)
    (hrange : sbuf.SnapshotRange mblk first last delta)
    (hwithin : 0 ≤ first ∧ first ≤ last ∧ last < c.ndata)
    (hnbytes : mblk.nbytes = c.ndata)
    (hloads :
      { sbuf.syncbuf with
        delta := delta
        makeKeyframe := false
        isKeyframe := sbuf.syncbuf.makeKeyframe }.Loads sync' mblk first last) :
    DataPhase c sync' first
      ⟨window c.ndata sync'.buf, first, last, fun i =>
        sync'.bidirectional && marksIn sync'.delta c.ndata first last i⟩ := by
  have hn := h.sizes.ndata
  have hbuf : ∀ i, i < c.ndata → sync'.buf i =
      if first ≤ i ∧ i ≤ last then mblk.buf i else sbuf.syncbuf.buf i := by
    intro i hi
    exact hloads.buf i (by dsimp only; omega)
  have hdelta : ∀ i, i < c.ndata → sync'.delta i = delta i := by
    intro i hi
    exact hloads.delta i (by dsimp only; omega)
  exact
    { sizes :=
        { hasBuf := hloads.hasBuf.trans h.sizes.hasBuf
          ndata := hloads.ndata.trans hn
          bidirectional := hloads.bidirectional.trans h.sizes.bidirectional
          nbytes := h.sizes.nbytes
          pos := h.sizes.pos
          bound := h.sizes.bound }
      used := hloads.used
      range := by
        rw [hloads.range.1, hloads.range.2]
        omega
      bidir := hloads.bidir.trans hloads.bidirectional.symm
      bidirRange := fun hbidir => by
        have := hloads.bidirRange (hloads.bidirectional.symm.trans hbidir)
        rw [hloads.range.2, this.1, this.2]
        dsimp only
        rw [hn]
        exact ⟨rfl, rfl⟩
      sent := fun i h0 hin hout => by
        rw [hloads.range.1, hloads.range.2] at hout
        rw [hbuf i hin, if_neg hout]
        rcases h.equal with hkey | heq
        · have := hrange.keyframe hkey
          omega
        · exact heq i h0 hin
      waiting := fun i hlo hhi => by
        rw [hloads.range.1] at hlo
        rw [hloads.range.2] at hhi
        have hcopied : sync'.buf i = mblk.buf i := by
          rw [hbuf i (by omega), if_pos ⟨hlo, hhi⟩]
        rw [hcopied, hdelta i (by omega), hloads.isKeyframe]
        dsimp only
        cases hkey : sbuf.syncbuf.makeKeyframe with
        | true =>
            rw [if_pos rfl]
            exact (hrange.keyframe hkey).2.2 i hlo hhi
        | false =>
            have hdiff := (hrange.differences hkey).2.2.2.2.2 i hlo hhi
            have heq : c.newdata i = sbuf.syncbuf.buf i := by
              rcases h.equal with hkey' | heq
              · rw [hkey'] at hkey
                contradiction
              · exact heq i (by omega) (by omega)
            rw [if_neg (by simp), hdiff, heq, uInt8_add_sub]
      hasNew := by
        rw [h.finished, hloads.range.1]
        simp
      newRange := fun hlt => by
        rw [hloads.range.1] at hlt
        omega
      data := rfl
      jobRange := ⟨rfl, hloads.range.2.symm⟩
      marks := by
        dsimp only
        rw [hloads.range.2] }

theorem Transfers.of_buf_eq
    {c : Incoming} {jobs : List Snapshot} {sync : SynchronizedSourceBuffer}
    (h : Transfers c jobs sync) {buf : Mem}
    (hbuf : ∀ i, 0 ≤ i → i < sync.ndata → buf i = sync.buf i) :
    Transfers c jobs { sync with buf := buf } := by
  cases h with
  | idle h =>
      have hn := h.sizes.ndata
      refine .idle
        { sizes := ⟨h.sizes.hasBuf, hn, h.sizes.bidirectional,
            h.sizes.nbytes, h.sizes.pos, h.sizes.bound⟩
          unused := h.unused
          finished := h.finished
          equal := ?_ }
      rcases h.equal with hkey | heq
      · exact .inl hkey
      · exact .inr fun i h0 hin => by
          rw [heq i h0 hin]
          exact (hbuf i h0 (by omega)).symm
  | data first job h =>
      have hn := h.sizes.ndata
      have hrange := h.range
      exact .data first job
        { sizes := ⟨h.sizes.hasBuf, hn, h.sizes.bidirectional,
            h.sizes.nbytes, h.sizes.pos, h.sizes.bound⟩
          used := h.used
          range := h.range
          bidir := h.bidir
          bidirRange := h.bidirRange
          sent := fun i h0 hin hout => by
            rw [h.sent i h0 hin hout]
            exact (hbuf i h0 (by omega)).symm
          waiting := fun i hlo hhi => by
            dsimp only at hlo hhi ⊢
            rw [h.waiting i hlo hhi]
            exact (hbuf i (by omega) (by omega)).symm
          hasNew := h.hasNew
          newRange := h.newRange
          data := by
            rw [h.data]
            exact window_eq_iff.mpr fun i h0 hin => (hbuf i h0 (by omega)).symm
          jobRange := h.jobRange
          marks := h.marks }
  | bits first last job h =>
      have hn := h.sizes.ndata
      exact .bits first last job
        { sizes := ⟨h.sizes.hasBuf, hn, h.sizes.bidirectional,
            h.sizes.nbytes, h.sizes.pos, h.sizes.bound⟩
          used := h.used
          bidirectional := h.bidirectional
          bidir := h.bidir
          range := h.range
          bitRange := h.bitRange
          sent := fun i h0 hin => by
            rw [h.sent i h0 hin]
            exact (hbuf i h0 (by omega)).symm
          sentBits := h.sentBits
          hasNew := h.hasNew
          newRange := h.newRange
          data := by
            rw [h.data]
            exact window_eq_iff.mpr fun i h0 hin => (hbuf i h0 (by omega)).symm
          jobRange := h.jobRange
          marks := h.marks }

/-- With an unused synchronization buffer no snapshot is under way. -/
theorem Transfers.idle_of_unused
    {c : Incoming} {jobs : List Snapshot} {sync : SynchronizedSourceBuffer}
    (h : Transfers c jobs sync) (hunused : sync.used = false) :
    jobs = [] ∧ IdlePhase c sync := by
  cases h with
  | idle h => exact ⟨rfl, h⟩
  | data first job h =>
      rw [h.used] at hunused
      contradiction
  | bits first last job h =>
      rw [h.used] at hunused
      contradiction

theorem Transfers.sizes
    {c : Incoming} {jobs : List Snapshot} {sync : SynchronizedSourceBuffer}
    (h : Transfers c jobs sync) : LinkSizes c sync := by
  cases h with
  | idle h => exact h.sizes
  | data first job h => exact h.sizes
  | bits first last job h => exact h.sizes

end Iocom
