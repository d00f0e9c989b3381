import Iocom.TargetBuffer

/-!
# Sending a synchronized range in data frames

`ioc_make_data_frame` takes as much of the synchronized range as fits in one
frame.  When the range has been sent, a bidirectional buffer goes on with the
range of its change bits; the frame which finishes the last range carries the
flag `IOC_SYNC_COMPLETE`.
-/

namespace Iocom

/-- The bytes which wait to be sent: the delta buffer, or for a static memory
block the block itself. -/
def SourceBuffer.outgoing (sbuf : SourceBuffer) (mblk : MemoryBlock) : Mem :=
  if sbuf.syncbuf.hasBuf then sbuf.syncbuf.delta else mblk.buf

def SourceBuffer.waiting (sbuf : SourceBuffer) (mblk : MemoryBlock) : List UInt8 :=
  Segment.segment (sbuf.outgoing mblk) sbuf.syncbuf.startAddr
    (sbuf.syncbuf.endAddr - sbuf.syncbuf.startAddr + 1).toNat

/-- The content of the next frame: the payload, whether it is compressed, and
how many of the waiting bytes it stands for. -/
def SourceBuffer.nextPayload
    (sbuf : SourceBuffer) (mblk : MemoryBlock) (room : ℕ) :
    List UInt8 × Bool × ℕ :=
  let waiting := sbuf.waiting mblk
  match (if sbuf.syncbuf.hasBuf then compress waiting room else none) with
  | some (out, count) => (out, true, count)
  | none => (waiting.take room, false, min waiting.length room)

/-- The synchronized range after `count` of its bytes have been sent. -/
def SynchronizedSourceBuffer.advance
    (sync : SynchronizedSourceBuffer) (count : ℕ) : SynchronizedSourceBuffer :=
  if sync.endAddr < sync.startAddr + count then
    if sync.bidirRangeSet then
      { sync with
        startAddr := sync.bidirStartAddr
        endAddr := sync.bidirEndAddr
        bidirRangeSet := false }
    else
      { sync with
        startAddr := sync.startAddr + count
        used := false }
  else { sync with startAddr := sync.startAddr + count }

/-- `ioc_make_data_frame`; `none` when flow control cancels the frame. -/
def makeDataFrame (con : Connection) (mblk : MemoryBlock) (sbuf : SourceBuffer) :
    Option (Connection × SourceBuffer × Frame) :=
  let sync := sbuf.syncbuf
  let mblkId := osUint sbuf.remoteMblkId
  let addr := osUint sync.startAddr
  let headerSz := headerSize con.isSocket mblkId addr
  let next := sbuf.nextPayload mblk (con.dstFrameSz - headerSz).toNat
  let usedBytes := next.1.length + headerSz
  if con.maxInAir - con.inAir < usedBytes then none
  else
    let finished := sync.endAddr < sync.startAddr + next.2.2
    some
      ({ con with
          frameOutUsed := usedBytes
          frameOutPos := 0
          frameOutNr := nextFrameNr con.frameOutNr },
        { sbuf with syncbuf := sync.advance next.2.2 },
        { frameNr := con.frameOutNr
          system := false
          flags :=
            { deltaEncoded :=
                sync.hasBuf && !sync.isKeyframe &&
                  decide (sync.startAddr < sync.ndata)
              compressed := next.2.1
              syncComplete := decide finished && !sync.bidirRangeSet }
          mblkId := mblkId
          addr := addr
          payload := next.1 })

/-- `ioc_store_data_frame` as called with the address field of a frame. -/
def TargetBuffer.storeFrame (tbuf : TargetBuffer) (frame : Frame) :
    Bool × TargetBuffer :=
  tbuf.storeDataFrame (osInt frame.addr) frame.payload frame.flags

theorem SourceBuffer.nextPayload_spec
    (sbuf : SourceBuffer) (mblk : MemoryBlock) (room : ℕ) :
    (sbuf.nextPayload mblk room).2.2 ≤ (sbuf.waiting mblk).length ∧
      (sbuf.nextPayload mblk room).1.length ≤ room ∧
      ∀ dstSz, (sbuf.nextPayload mblk room).2.2 ≤ dstSz →
        uncompress (sbuf.nextPayload mblk room).1 dstSz
            (sbuf.nextPayload mblk room).2.1 =
          ((sbuf.waiting mblk).take (sbuf.nextPayload mblk room).2.2, false) := by
  unfold SourceBuffer.nextPayload
  dsimp only
  split
  · rename_i out count hcompress
    have hcompress : compress (sbuf.waiting mblk) room = some (out, count) := by
      split at hcompress
      · exact hcompress
      · contradiction
    exact ⟨(uncompress_compress hcompress).1, compress_length_le_room hcompress,
      (uncompress_compress hcompress).2⟩
  · dsimp only
    refine ⟨by omega, by simp, fun dstSz hdst => ?_⟩
    have hlen : ((sbuf.waiting mblk).take room).length ≤ dstSz := by
      simp only [List.length_take]
      omega
    simp [uncompress, List.take_of_length_le hlen, Nat.min_comm]

theorem SynchronizedSourceBuffer.advance_rest
    (sync : SynchronizedSourceBuffer) (count : ℕ) :
    (sync.advance count).buf = sync.buf ∧
      (sync.advance count).hasBuf = sync.hasBuf ∧
      (sync.advance count).ndata = sync.ndata ∧
      (sync.advance count).bidirectional = sync.bidirectional ∧
      (sync.advance count).makeKeyframe = sync.makeKeyframe := by
  unfold SynchronizedSourceBuffer.advance
  split
  · split <;> simp
  · simp

theorem makeDataFrame_sbuf
    {con con' : Connection} {mblk : MemoryBlock} {sbuf sbuf' : SourceBuffer}
    {frame : Frame}
    (hmake : makeDataFrame con mblk sbuf = some (con', sbuf', frame)) :
    ∃ count, sbuf' = { sbuf with syncbuf := sbuf.syncbuf.advance count } := by
  unfold makeDataFrame at hmake
  dsimp only at hmake
  split at hmake
  · contradiction
  simp only [Option.some.injEq, Prod.mk.injEq] at hmake
  exact ⟨_, hmake.2.1.symm⟩

/-- What one frame takes out of the synchronized range, and what the receiving
end decodes from it. -/
theorem makeDataFrame_spec
    {con con' : Connection} {mblk : MemoryBlock} {sbuf sbuf' : SourceBuffer}
    {frame : Frame}
    (hmake : makeDataFrame con mblk sbuf = some (con', sbuf', frame))
    (hbuf : sbuf.syncbuf.hasBuf = true)
    (hrange : sbuf.syncbuf.startAddr ≤ sbuf.syncbuf.endAddr) :
    ∃ count : ℕ,
      sbuf.syncbuf.startAddr + count ≤ sbuf.syncbuf.endAddr + 1 ∧
      sbuf' = { sbuf with syncbuf := sbuf.syncbuf.advance count } ∧
      frame.addr = osUint sbuf.syncbuf.startAddr ∧
      frame.flags.deltaEncoded =
        (!sbuf.syncbuf.isKeyframe &&
          decide (sbuf.syncbuf.startAddr < sbuf.syncbuf.ndata)) ∧
      frame.flags.syncComplete =
        (decide (sbuf.syncbuf.endAddr < sbuf.syncbuf.startAddr + count) &&
          !sbuf.syncbuf.bidirRangeSet) ∧
      ∀ dstSz, count ≤ dstSz →
        uncompress frame.payload dstSz frame.flags.compressed =
          (Segment.segment sbuf.syncbuf.delta sbuf.syncbuf.startAddr count,
            false) := by
  unfold makeDataFrame at hmake
  dsimp only at hmake
  split at hmake
  · contradiction
  simp only [Option.some.injEq, Prod.mk.injEq] at hmake
  obtain ⟨-, rfl, rfl⟩ := hmake
  have hpayload := sbuf.nextPayload_spec mblk
    (con.dstFrameSz - (headerSize con.isSocket (osUint sbuf.remoteMblkId)
      (osUint sbuf.syncbuf.startAddr) : ℕ)).toNat
  generalize sbuf.nextPayload mblk
    (con.dstFrameSz - (headerSize con.isSocket (osUint sbuf.remoteMblkId)
      (osUint sbuf.syncbuf.startAddr) : ℕ)).toNat = next at *
  have hlength : (sbuf.waiting mblk).length =
      (sbuf.syncbuf.endAddr - sbuf.syncbuf.startAddr + 1).toNat := by
    simp [SourceBuffer.waiting]
  refine ⟨next.2.2, by omega, rfl, rfl, by simp [hbuf], rfl, ?_⟩
  intro dstSz hdst
  rw [hpayload.2.2 dstSz hdst]
  simp only [SourceBuffer.waiting, SourceBuffer.outgoing, hbuf, if_true]
  rw [Segment.segment_take _ _ (by omega)]

/-- A serial connection which sends frames of up to `dstFrameSz` bytes. -/
def serialSender (dstFrameSz : ℤ) : Connection where
  isSocket := false
  connectUp := true
  frameSz := 192
  dstFrameSz := dstFrameSz
  maxInAir := 440
  maxAckInAir := 80
  unacknowledgedLimit := 220
  bytesSent := 0
  processedBytes := 0
  bytesReceived := 0
  bytesAcknowledged := 0
  frameOutUsed := 0
  frameOutPos := 0
  frameOutNr := 1
  authenticationSent := true
  authenticationReceived := true

end Iocom
