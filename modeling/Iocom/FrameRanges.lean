import Iocom.DirtyRange
import Iocom.TransferBufferSizes

/-!
# Frames lie within the buffers of a link

The range which a source buffer is about to send lies within its data bytes or
within its change bits.  A frame made of a part of it is accepted by a target
buffer which has as many data bytes, and change bits where the source has them.
-/

namespace Iocom

/-! ## The range which is sent -/

/-- The range which waits to be sent lies within the `n` data bytes, where the
range of change bits may be set aside for later, or it is this range. -/
def SynchronizedSourceBuffer.RangeFits (sync : SynchronizedSourceBuffer) (n : ℤ) : Prop :=
  sync.used = true →
    0 ≤ sync.startAddr ∧ sync.startAddr ≤ sync.endAddr + 1 ∧
      ((sync.endAddr < n ∧
          (sync.bidirRangeSet = true →
            sync.bidirectional = true ∧ n ≤ sync.bidirStartAddr ∧
              sync.bidirStartAddr ≤ sync.bidirEndAddr + 1 ∧
              sync.bidirEndAddr < transferBytes n true)) ∨
        (sync.bidirectional = true ∧ n ≤ sync.startAddr ∧
          sync.endAddr < transferBytes n true ∧ sync.bidirRangeSet = false))

/-- The bytes which the frame stands for lie within the `n` data bytes, or
within the change bits. -/
def Frame.LiesWithin (frame : Frame) (n : ℤ) (bidirectional : Bool) : Prop :=
  ∃ (start : ℤ) (bytes : List UInt8),
    frame.addr = osUint start ∧ 0 ≤ start ∧
      (start + bytes.length ≤ n ∨
        (bidirectional = true ∧ n ≤ start ∧
          start + bytes.length ≤ transferBytes n true)) ∧
      ∀ dstSz, bytes.length ≤ dstSz →
        uncompress frame.payload dstSz frame.flags.compressed = (bytes, false)

def SynchronizedTargetBuffer.EndsInData (sync : SynchronizedTargetBuffer) : Prop :=
  sync.hasNewData = true → sync.newdataEndAddr < sync.ndata

variable {sync : SynchronizedSourceBuffer} {sbuf : SourceBuffer} {mblk : MemoryBlock} {n : ℤ}

theorem SynchronizedSourceBuffer.load_rangeFits
    (hndata : sync.hasBuf = true → sync.ndata = n) {first last : ℤ}
    (hfirst : 0 ≤ first) (hle : first ≤ last + 1) (hlast : last < n) :
    (sync.load mblk first last).RangeFits n := by
  have hbits : n ≤ n + first / 8 ∧ n + first / 8 ≤ n + last / 8 + 1 ∧
      n + last / 8 < transferBytes n true := by
    unfold transferBytes
    rw [if_pos rfl]
    omega
  intro _
  unfold SynchronizedSourceBuffer.load
  dsimp only
  cases hbuf : sync.hasBuf with
  | false =>
      rw [if_neg Bool.false_ne_true]
      refine ⟨hfirst, hle, .inl ⟨hlast, fun hset => ?_⟩⟩
      cases hset
  | true =>
      rw [if_pos rfl, hndata hbuf]
      cases hbidir : sync.bidirectional with
      | false =>
          rw [if_neg Bool.false_ne_true]
          refine ⟨hfirst, hle, .inl ⟨hlast, fun hset => ?_⟩⟩
          cases hset
      | true =>
          rw [if_pos rfl]
          exact ⟨hfirst, hle, .inl ⟨hlast, fun _ => ⟨rfl, hbits⟩⟩⟩

theorem SynchronizedSourceBuffer.RangeFits.advance
    (h : sync.RangeFits n) {count : ℕ}
    (hcount : sync.used = true → sync.startAddr + count ≤ sync.endAddr + 1) :
    (sync.advance count).RangeFits n := by
  unfold SynchronizedSourceBuffer.advance
  split
  · split
    next hset =>
      intro hused
      obtain ⟨hfirst, -, hcase⟩ := h hused
      rcases hcase with ⟨hend, hbits⟩ | ⟨-, -, -, hunset⟩
      · obtain ⟨hbidir, hlo, hle, hhi⟩ := hbits hset
        have hcount := hcount hused
        exact ⟨by dsimp only; omega, hle, .inr ⟨hbidir, hlo, hhi, rfl⟩⟩
      · rw [hset] at hunset
        cases hunset
    next =>
      intro hused
      cases hused
  · intro hused
    obtain ⟨hfirst, -, hcase⟩ := h hused
    have hcount := hcount hused
    refine ⟨by dsimp only; omega, hcount, ?_⟩
    rcases hcase with hdata | ⟨hbidir, hlo, hhi, hunset⟩
    · exact .inl hdata
    · exact .inr ⟨hbidir, by dsimp only; omega, hhi, hunset⟩

theorem SourceBuffer.invalidate_syncbuf (sbuf : SourceBuffer) (mblk : MemoryBlock)
    (first last : ℤ) :
    ∃ buf, (sbuf.invalidate mblk first last).syncbuf = { sbuf.syncbuf with buf := buf } := by
  unfold SourceBuffer.invalidate
  cases sbuf.invalidatedPart mblk first last with
  | none => exact ⟨_, rfl⟩
  | some part =>
      dsimp only
      split
      · unfold SourceBuffer.invalidateBytes
        split
        · exact ⟨_, rfl⟩
        · exact ⟨_, rfl⟩
      · exact ⟨_, rfl⟩

theorem SourceBuffer.invalidate_rangeFits (h : sbuf.syncbuf.RangeFits n) (mblk : MemoryBlock)
    (first last : ℤ) : (sbuf.invalidate mblk first last).syncbuf.RangeFits n := by
  obtain ⟨buf, hbuf⟩ := sbuf.invalidate_syncbuf mblk first last
  rw [hbuf]
  exact h

theorem SourceBuffer.synchronize_rangeFits (h : sbuf.syncbuf.RangeFits mblk.nbytes)
    (hfits : sbuf.Fits mblk.nbytes) (hsize : 0 ≤ mblk.nbytes) :
    (sbuf.synchronize mblk).syncbuf.RangeFits mblk.nbytes := by
  unfold SourceBuffer.synchronize
  dsimp only
  split
  · exact h
  next htaken =>
    split
    · apply SynchronizedSourceBuffer.load_rangeFits
      · exact hfits.ndata
      · exact le_rfl
      · omega
      · omega
    next hkey =>
      -- Without a key frame the snapshot is taken of the changed range.
      have hset : sbuf.changed.rangeSet = true := by
        by_contra hunset
        simp [hkey, hunset] at htaken
      obtain ⟨hlo, hle, hhi⟩ := hfits.changed hset
      split
      · apply SynchronizedSourceBuffer.load_rangeFits
        · exact hfits.ndata
        · exact hlo
        · omega
        · exact hhi
      · split
        · exact fun hused => h hused
        next hsome =>
          obtain ⟨hfirst, hlast, -⟩ := sbuf.changedPart_spec mblk
          apply SynchronizedSourceBuffer.load_rangeFits
          · exact hfits.ndata
          · omega
          · omega
          · omega

theorem makeDataFrame_bytes {con con' : Connection} {sbuf' : SourceBuffer} {frame : Frame}
    (hmake : makeDataFrame con mblk sbuf = some (con', sbuf', frame)) :
    ∃ bytes : List UInt8,
      bytes.length ≤ (sbuf.syncbuf.endAddr - sbuf.syncbuf.startAddr + 1).toNat ∧
        sbuf' = { sbuf with syncbuf := sbuf.syncbuf.advance bytes.length } ∧
        frame.flags.syncComplete =
          (decide (sbuf.syncbuf.endAddr < sbuf.syncbuf.startAddr + bytes.length) &&
            !sbuf.syncbuf.bidirRangeSet) ∧
        ∀ dstSz, bytes.length ≤ dstSz →
          uncompress frame.payload dstSz frame.flags.compressed = (bytes, false) := by
  unfold makeDataFrame at hmake
  dsimp only at hmake
  split at hmake
  · contradiction
  simp only [Option.some.injEq, Prod.mk.injEq] at hmake
  obtain ⟨-, rfl, rfl⟩ := hmake
  obtain ⟨hcount, -, hdecode⟩ := sbuf.nextPayload_spec mblk
    (con.dstFrameSz - (headerSize con.isSocket (osUint sbuf.remoteMblkId)
      (osUint sbuf.syncbuf.startAddr) : ℕ)).toNat
  generalize sbuf.nextPayload mblk
    (con.dstFrameSz - (headerSize con.isSocket (osUint sbuf.remoteMblkId)
      (osUint sbuf.syncbuf.startAddr) : ℕ)).toNat = next at *
  have hwaiting : (sbuf.waiting mblk).length =
      (sbuf.syncbuf.endAddr - sbuf.syncbuf.startAddr + 1).toNat := by
    simp [SourceBuffer.waiting]
  have hlength : ((sbuf.waiting mblk).take next.2.2).length = next.2.2 := by
    rw [List.length_take]
    omega
  refine ⟨(sbuf.waiting mblk).take next.2.2, ?_, ?_, ?_, ?_⟩
  · omega
  · rw [hlength]
  · rw [hlength]
  · intro dstSz hdst
    rw [hlength] at hdst
    exact hdecode dstSz hdst

/-- A frame made of a range which fits lies within the data or the change bits,
and what is left of the range fits. -/
theorem makeDataFrame_liesWithin {con con' : Connection} {sbuf' : SourceBuffer}
    {frame : Frame} (hmake : makeDataFrame con mblk sbuf = some (con', sbuf', frame))
    (hrange : sbuf.syncbuf.RangeFits n) (hused : sbuf.syncbuf.used = true) :
    frame.LiesWithin n sbuf.syncbuf.bidirectional := by
  obtain ⟨bytes, hlength, -, -, hdecode⟩ := makeDataFrame_bytes hmake
  obtain ⟨-, haddr⟩ := makeDataFrame_address hmake
  obtain ⟨hstart, hle, hcase⟩ := hrange hused
  refine ⟨sbuf.syncbuf.startAddr, bytes, haddr, hstart, ?_, hdecode⟩
  rcases hcase with ⟨hend, -⟩ | ⟨hbidir, hlo, hhi, -⟩
  · left
    omega
  · right
    exact ⟨hbidir, hlo, by omega⟩

theorem makeDataFrame_rangeFits {con con' : Connection} {sbuf' : SourceBuffer}
    {frame : Frame} (hmake : makeDataFrame con mblk sbuf = some (con', sbuf', frame))
    (hrange : sbuf.syncbuf.RangeFits n) : sbuf'.syncbuf.RangeFits n := by
  obtain ⟨bytes, hlength, rfl, -⟩ := makeDataFrame_bytes hmake
  apply hrange.advance
  intro hused
  obtain ⟨-, hle, -⟩ := hrange hused
  omega

/-! ## Frames which are accepted -/

variable {tbuf : TargetBuffer} {frame : Frame}

theorem TargetBuffer.decoded_liesWithin (hfits : tbuf.Fits n)
    (hlies : frame.LiesWithin n tbuf.syncbuf.bidirectional) :
    0 ≤ osInt frame.addr ∧
      ¬tbuf.syncbuf.maxNewdata (osInt frame.addr) < 0 ∧
      (tbuf.decoded (osInt frame.addr) frame.payload frame.flags).2 = false ∧
      (osInt frame.addr < n → osInt frame.addr +
        (tbuf.decoded (osInt frame.addr) frame.payload frame.flags).1.length ≤ n) := by
  obtain ⟨start, bytes, haddr, hstart, hcase, hdecode⟩ := hlies
  have hndata := hfits.ndata
  have hnbytes := hfits.consistent.nbytes
  have hbound := hfits.consistent.bound
  have hend : start + bytes.length ≤ tbuf.syncbuf.nbytes := by
    rw [hnbytes, hndata]
    rcases hcase with hdata | ⟨hbidir, -, hbits⟩
    · unfold transferBytes
      split <;> omega
    · rw [hbidir]
      exact hbits
  have hosInt : osInt frame.addr = start := by
    rw [haddr]
    exact osInt_osUint hstart (by omega)
  have hmax : tbuf.syncbuf.maxNewdata start = tbuf.syncbuf.nbytes - start :=
    osInt_of_range (by omega) (by omega)
  have hdecoded : tbuf.decoded start frame.payload frame.flags = (bytes, false) := by
    unfold TargetBuffer.decoded
    rw [hmax]
    exact hdecode _ (by omega)
  rw [hosInt, hdecoded, hmax]
  refine ⟨hstart, by omega, rfl, fun hin => ?_⟩
  rcases hcase with hdata | ⟨-, hlo, -⟩
  · exact hdata
  · omega

theorem TargetBuffer.storeFrame_accepted (hfits : tbuf.Fits n)
    (hlies : frame.LiesWithin n tbuf.syncbuf.bidirectional) :
    (tbuf.storeFrame frame).1 = true := by
  obtain ⟨-, hmax, hgood, -⟩ := TargetBuffer.decoded_liesWithin hfits hlies
  have hrejected :=
    tbuf.storeDataFrame_rejected_iff (osInt frame.addr) frame.payload frame.flags
  rw [← Bool.not_eq_false]
  intro hfalse
  rcases hrejected.mp hfalse with hneg | hbad
  · exact hmax hneg
  · rw [hgood] at hbad
    cases hbad

theorem TargetBuffer.frameFits_of_liesWithin (hfits : tbuf.Fits n)
    (hlies : frame.LiesWithin n tbuf.syncbuf.bidirectional)
    (hends : tbuf.syncbuf.EndsInData) :
    tbuf.FrameFits (osInt frame.addr) frame.payload frame.flags := by
  obtain ⟨haddr, -, -, hdata⟩ := TargetBuffer.decoded_liesWithin hfits hlies
  refine .inr (.inr (.inr ⟨haddr, fun _ _ => ⟨fun hin => ?_, hends⟩⟩))
  rw [hfits.ndata] at hin ⊢
  exact hdata hin

theorem TargetBuffer.storeFrame_endsInData (hfits : tbuf.Fits n)
    (hlies : frame.LiesWithin n tbuf.syncbuf.bidirectional)
    (hends : tbuf.syncbuf.EndsInData) :
    (tbuf.storeFrame frame).2.syncbuf.EndsInData := by
  obtain ⟨-, hmax, hgood, hdata⟩ := TargetBuffer.decoded_liesWithin hfits hlies
  unfold TargetBuffer.storeFrame
  generalize osInt frame.addr = addr at hmax hgood hdata ⊢
  by_cases hsome : (tbuf.decoded addr frame.payload frame.flags).1.length = 0
  · rw [TargetBuffer.storeDataFrame_eq, if_neg hmax, if_neg (by rw [hgood]; decide),
      if_pos hsome]
    exact hends
  · have hsync := tbuf.storeDataFrame_syncbuf addr frame.payload frame.flags hmax
      (by rw [hgood]; decide) hsome
    have hmarked : (tbuf.marked addr frame.payload frame.flags).EndsInData := by
      intro hnew
      rw [(tbuf.marked_sizes addr frame.payload frame.flags).1]
      refine (tbuf.marked_end_iff addr frame.payload frame.flags).mpr ⟨fun hin => ?_, hends⟩ hnew
      rw [hfits.ndata] at hin ⊢
      exact hdata hin
    rw [hsync]
    split
    · intro hnew
      rw [(SynchronizedTargetBuffer.synchronize_sizes _).2.2.2] at hnew
      cases hnew
    · exact hmarked

end Iocom
