import Iocom.BlockIdentifiers
import Iocom.SignalAccess

/-!
# The changed range covers what has not been sent

A one directional source buffer keeps one range of addresses which may differ
from the synchronized data.  Local writes, signals and forwarded data all add
to it, and a snapshot takes it.  Here every way of writing a memory block is
shown to leave no difference outside the range.
-/

namespace Iocom

structure SourceBuffer.OneWay (sbuf : SourceBuffer) : Prop where
  hasBuf : sbuf.syncbuf.hasBuf = true
  oneWay : sbuf.syncbuf.bidirectional = false

/-- Once the key frame has been made, the changed range covers every byte which
differs from the synchronized data. -/
def SourceBuffer.CoversChanges (sbuf : SourceBuffer) (mblk : MemoryBlock) : Prop :=
  sbuf.syncbuf.makeKeyframe = false →
    ∀ i, 0 ≤ i → i < mblk.nbytes → mblk.buf i ≠ sbuf.syncbuf.buf i →
      sbuf.changed.Covers i

structure SourceBuffer.Tracks
    (mode : ℕ → Bool) (mblk : MemoryBlock) (sbuf : SourceBuffer) : Prop where
  mode : sbuf.syncbuf.hasBuf = true → sbuf.syncbuf.bidirectional = mode sbuf.clink.con
  covers : sbuf.OneWay → sbuf.CoversChanges mblk

structure SourceBuffer.SameSetup (sbuf sbuf' : SourceBuffer) : Prop where
  hasBuf : sbuf'.syncbuf.hasBuf = sbuf.syncbuf.hasBuf
  bidirectional : sbuf'.syncbuf.bidirectional = sbuf.syncbuf.bidirectional
  con : sbuf'.clink.con = sbuf.clink.con

variable {mode : ℕ → Bool} {mblk mblk' : MemoryBlock} {sbuf sbuf' : SourceBuffer}

theorem SourceBuffer.SameSetup.trans {sbuf'' : SourceBuffer}
    (h : sbuf.SameSetup sbuf') (h' : sbuf'.SameSetup sbuf'') : sbuf.SameSetup sbuf'' where
  hasBuf := h'.hasBuf.trans h.hasBuf
  bidirectional := h'.bidirectional.trans h.bidirectional
  con := h'.con.trans h.con

theorem SourceBuffer.SameSetup.oneWay
    (h : sbuf.SameSetup sbuf') (h' : sbuf'.OneWay) : sbuf.OneWay where
  hasBuf := h.hasBuf.symm.trans h'.hasBuf
  oneWay := h.bidirectional.symm.trans h'.oneWay

theorem SourceBuffer.Tracks.of_sameSetup
    (h : sbuf.Tracks mode mblk) (hsetup : sbuf.SameSetup sbuf')
    (hcovers : sbuf.OneWay → sbuf.CoversChanges mblk → sbuf'.CoversChanges mblk') :
    sbuf'.Tracks mode mblk' where
  mode := by
    intro hbuf
    rw [hsetup.bidirectional, hsetup.con]
    exact h.mode (hsetup.hasBuf.symm.trans hbuf)
  covers := by
    intro honeWay
    have hbefore := hsetup.oneWay honeWay
    exact hcovers hbefore (h.covers hbefore)

/-! ## Marking -/

theorem SourceBuffer.invalidate_sameSetup
    (sbuf : SourceBuffer) (mblk : MemoryBlock) (startAddr endAddr : ℤ) :
    sbuf.SameSetup (sbuf.invalidate mblk startAddr endAddr) := by
  unfold SourceBuffer.invalidate
  cases sbuf.invalidatedPart mblk startAddr endAddr with
  | none => exact ⟨rfl, rfl, rfl⟩
  | some part =>
      dsimp only
      split
      · unfold SourceBuffer.invalidateBytes
        split <;> exact ⟨rfl, rfl, rfl⟩
      · exact ⟨rfl, rfl, rfl⟩

theorem SourceBuffer.OneWay.invalidate_eq
    (h : sbuf.OneWay) (mblk : MemoryBlock) (startAddr endAddr : ℤ) :
    sbuf.invalidate mblk startAddr endAddr =
      match sbuf.invalidatedPart mblk startAddr endAddr with
      | none => sbuf
      | some part => { sbuf with changed := sbuf.changed.add part.1 part.2 } := by
  unfold SourceBuffer.invalidate
  cases sbuf.invalidatedPart mblk startAddr endAddr with
  | none => rfl
  | some part =>
      dsimp only
      rw [h.oneWay, if_neg Bool.false_ne_true]

/-- Marking keeps what is covered, and covers the differences of the range. -/
theorem SourceBuffer.OneWay.invalidate_covers
    (h : sbuf.OneWay) {startAddr endAddr i : ℤ}
    (hi : sbuf.changed.Covers i ∨
      (startAddr ≤ i ∧ i ≤ endAddr ∧ mblk.buf i ≠ sbuf.syncbuf.buf i)) :
    (sbuf.invalidate mblk startAddr endAddr).changed.Covers i := by
  rw [h.invalidate_eq]
  rcases hi with hcovered | ⟨hlo, hhi, hdiff⟩
  · cases sbuf.invalidatedPart mblk startAddr endAddr with
    | none => exact hcovered
    | some part => exact hcovered.add part.1 part.2
  · have hpart := sbuf.invalidatedPart_spec mblk (hlo.trans hhi)
    cases hsome : sbuf.invalidatedPart mblk startAddr endAddr with
    | none =>
        rw [hsome] at hpart
        exact absurd (hpart.2 i hlo hhi) hdiff
    | some part =>
        rw [hsome] at hpart
        obtain ⟨-, -, -, -, hrest⟩ := hpart
        have hin : part.1 ≤ i ∧ i ≤ part.2 := by
          by_contra hout
          exact hdiff (hrest i hlo hhi hout)
        exact sbuf.changed.covers_add hin.1 hin.2

theorem SourceBuffer.Tracks.invalidate
    (h : sbuf.Tracks mode mblk) {startAddr endAddr : ℤ}
    (hnbytes : mblk'.nbytes = mblk.nbytes)
    (hinside : ∀ i, mblk'.buf i ≠ mblk.buf i → startAddr ≤ i ∧ i ≤ endAddr) :
    (sbuf.invalidate mblk' startAddr endAddr).Tracks mode mblk' := by
  apply h.of_sameSetup (sbuf.invalidate_sameSetup mblk' startAddr endAddr)
  intro honeWay hcovers hkey i hlo hhi hdiff
  have hsync : (sbuf.invalidate mblk' startAddr endAddr).syncbuf = sbuf.syncbuf := by
    rw [honeWay.invalidate_eq]
    cases sbuf.invalidatedPart mblk' startAddr endAddr <;> rfl
  rw [hsync] at hkey hdiff
  apply honeWay.invalidate_covers
  by_cases hsame : mblk'.buf i = mblk.buf i
  · left
    rw [hsame] at hdiff
    exact hcovers hkey i hlo (hnbytes ▸ hhi) hdiff
  · right
    obtain ⟨hstart, hend⟩ := hinside i hsame
    exact ⟨hstart, hend, hdiff⟩

/-! ## Snapshots and frames -/

theorem SourceBuffer.synchronize_sameSetup (sbuf : SourceBuffer) (mblk : MemoryBlock) :
    sbuf.SameSetup (sbuf.synchronize mblk) := by
  have hload : ∀ (sync : SynchronizedSourceBuffer) (first last : ℤ),
      (sync.load mblk first last).hasBuf = sync.hasBuf ∧
        (sync.load mblk first last).bidirectional = sync.bidirectional := by
    intro sync first last
    unfold SynchronizedSourceBuffer.load
    dsimp only
    split
    · split <;> exact ⟨rfl, rfl⟩
    · exact ⟨rfl, rfl⟩
  unfold SourceBuffer.synchronize
  dsimp only
  split
  · exact ⟨rfl, rfl, rfl⟩
  split
  · exact ⟨(hload _ _ _).1, (hload _ _ _).2, rfl⟩
  split
  · exact ⟨(hload _ _ _).1, (hload _ _ _).2, rfl⟩
  split
  · exact ⟨rfl, rfl, rfl⟩
  · exact ⟨(hload _ _ _).1, (hload _ _ _).2, rfl⟩

theorem SourceBuffer.Tracks.synchronize (h : sbuf.Tracks mode mblk) :
    (sbuf.synchronize mblk).Tracks mode mblk := by
  apply h.of_sameSetup (sbuf.synchronize_sameSetup mblk)
  intro honeWay hcovers
  have hrange : sbuf.syncbuf.bidirectional = true → sbuf.changed.rangeSet = true →
      sbuf.changed.startAddr ≤ sbuf.changed.endAddr := by
    intro hbidir
    rw [honeWay.oneWay] at hbidir
    cases hbidir
  rcases sbuf.synchronize_cases mblk honeWay.hasBuf hrange with
    ⟨hsame, -⟩ | ⟨-, hkey, -, hclean, heq⟩ |
    ⟨-, first, last, delta, hsnapshot, hloaded⟩
  · rw [hsame]
    exact hcovers
  · -- Nothing differs inside the range, and nothing outside it.
    rw [hclean]
    intro _ i hlo hhi hdiff
    exact absurd (heq i (hcovers hkey i hlo hhi hdiff)).symm hdiff
  · rw [hloaded]
    intro _ i hlo hhi hdiff
    have hload : ∀ sync : SynchronizedSourceBuffer, sync.hasBuf = true →
        sync.bidirectional = false →
        (sync.load mblk first last).buf =
          Segment.copyRange sync.buf mblk.buf first last := by
      intro sync hbuf honeWay
      unfold SynchronizedSourceBuffer.load
      dsimp only
      rw [if_pos hbuf, honeWay, if_neg Bool.false_ne_true]
    have hbuf := hload
      { sbuf.syncbuf with
        delta := delta
        makeKeyframe := false
        isKeyframe := sbuf.syncbuf.makeKeyframe }
      honeWay.hasBuf honeWay.oneWay
    dsimp only at hdiff hbuf
    rw [hbuf, Segment.copyRange_apply] at hdiff
    have hout : ¬(first ≤ i ∧ i ≤ last) := by
      intro hin
      rw [if_pos hin] at hdiff
      exact hdiff rfl
    rw [if_neg hout] at hdiff
    cases hkey : sbuf.syncbuf.makeKeyframe with
    | true =>
        obtain ⟨hfirst, hlast, -⟩ := hsnapshot.keyframe hkey
        exact absurd ⟨by omega, by omega⟩ hout
    | false =>
        obtain ⟨-, -, -, -, hrest, -⟩ := hsnapshot.differences hkey
        obtain ⟨-, hstart, hend⟩ := hcovers hkey i hlo hhi hdiff
        exact absurd (hrest i hstart hend hout).symm hdiff

theorem SourceBuffer.Tracks.advance (h : sbuf.Tracks mode mblk) (count : ℕ) :
    SourceBuffer.Tracks mode mblk
      { sbuf with syncbuf := sbuf.syncbuf.advance count } := by
  obtain ⟨hbuf, hhasBuf, -, hbidir, hkey⟩ := sbuf.syncbuf.advance_rest count
  have hsetup : sbuf.SameSetup { sbuf with syncbuf := sbuf.syncbuf.advance count } :=
    ⟨hhasBuf, hbidir, rfl⟩
  apply h.of_sameSetup hsetup
  intro _ hcovers hframe i hlo hhi hdiff
  dsimp only at hframe hdiff
  rw [hkey] at hframe
  rw [hbuf] at hdiff
  exact hcovers hframe i hlo hhi hdiff

/-! ## Echo of received data -/

theorem echoBytes_sameSetup
    (changed : ℤ → Bool) (mblk : MemoryBlock) (n : ℕ) (i : ℤ) (sbuf : SourceBuffer) :
    sbuf.SameSetup (echoBytes changed mblk n i sbuf) := by
  induction n generalizing i sbuf with
  | zero => exact ⟨rfl, rfl, rfl⟩
  | succ n ih =>
      rw [echoBytes]
      split
      · exact (sbuf.invalidate_sameSetup mblk i i).trans (ih (i + 1) _)
      · exact ih (i + 1) sbuf

/-- A one directional buffer is never kept from the data of a bidirectional
target buffer: they are not of the same connection. -/
theorem SourceBuffer.Tracks.echo
    (h : sbuf.Tracks mode mblk) {tbuf : TargetBuffer}
    (htbuf : mode tbuf.clink.con = true) (hnbytes : mblk'.nbytes = mblk.nbytes)
    (hinside : ∀ i, mblk'.buf i ≠ mblk.buf i →
      tbuf.syncbuf.bufStartAddr ≤ i ∧ i ≤ tbuf.syncbuf.bufEndAddr) :
    (sbuf.echo mblk' tbuf).Tracks mode mblk' := by
  have hbidirectional : sbuf.OneWay → mode sbuf.clink.con = false := by
    intro honeWay
    rw [← h.mode honeWay.hasBuf]
    exact honeWay.oneWay
  unfold SourceBuffer.echo
  dsimp only
  split
  next hskip =>
      apply h.of_sameSetup ⟨rfl, rfl, rfl⟩
      intro honeWay
      have hcon : sbuf.clink.con = tbuf.clink.con := by
        unfold SourceBuffer.skipsEcho at hskip
        rw [Bool.and_eq_true, Bool.and_eq_true, decide_eq_true_eq] at hskip
        exact hskip.1.1
      have hmode := hbidirectional honeWay
      rw [hcon, htbuf] at hmode
      cases hmode
  next =>
      split
      next hbidir =>
          apply h.of_sameSetup (echoBytes_sameSetup _ _ _ _ _)
          intro honeWay
          rw [honeWay.oneWay] at hbidir
          cases hbidir
      next => exact h.invalidate hnbytes hinside

/-! ## The block -/

structure LinkedBlock.Tracks (mode : ℕ → Bool) (block : LinkedBlock) : Prop where
  sbufs : ∀ sbuf ∈ block.sbufs, sbuf.Tracks mode block.mblk
  tbufs : ∀ tbuf ∈ block.tbufs, tbuf.syncbuf.bidirectional = mode tbuf.clink.con

variable {block block' : LinkedBlock}

theorem receiveTargetBuffer_tracks
    {sbufs : List SourceBuffer} {tbuf : TargetBuffer}
    (hsbufs : ∀ sbuf ∈ sbufs, sbuf.Tracks mode mblk)
    (htbuf : tbuf.syncbuf.bidirectional = mode tbuf.clink.con) :
    (receiveTargetBuffer mblk sbufs tbuf).1.nbytes = mblk.nbytes ∧
      (∀ sbuf ∈ (receiveTargetBuffer mblk sbufs tbuf).2.1,
        sbuf.Tracks mode (receiveTargetBuffer mblk sbufs tbuf).1) ∧
      (receiveTargetBuffer mblk sbufs tbuf).2.2.syncbuf.bidirectional =
        mode (receiveTargetBuffer mblk sbufs tbuf).2.2.clink.con := by
  unfold receiveTargetBuffer
  split
  next =>
      refine ⟨rfl, ?_, htbuf⟩
      intro sbuf hsbuf
      obtain ⟨before, hbefore, rfl⟩ := List.mem_map.mp hsbuf
      have htracks := hsbufs before hbefore
      have hinside : ∀ i, (mblk.copyReceived tbuf.syncbuf).buf i ≠ mblk.buf i →
          tbuf.syncbuf.bufStartAddr ≤ i ∧ i ≤ tbuf.syncbuf.bufEndAddr := by
        intro i hchanged
        by_contra hout
        apply hchanged
        unfold MemoryBlock.copyReceived
        dsimp only
        split
        · exact if_neg fun h => hout h.1
        · exact if_neg hout
      dsimp only
      split
      next hbidir =>
          rw [htbuf] at hbidir
          exact htracks.echo hbidir rfl hinside
      next => exact htracks.invalidate rfl hinside
  next => exact ⟨rfl, hsbufs, htbuf⟩

theorem receive_tracks
    {sbufs : List SourceBuffer} {tbufs : List TargetBuffer}
    (hsbufs : ∀ sbuf ∈ sbufs, sbuf.Tracks mode mblk)
    (htbufs : ∀ tbuf ∈ tbufs, tbuf.syncbuf.bidirectional = mode tbuf.clink.con) :
    (∀ sbuf ∈ (receive mblk sbufs tbufs).2.1,
        sbuf.Tracks mode (receive mblk sbufs tbufs).1) ∧
      ∀ tbuf ∈ (receive mblk sbufs tbufs).2.2,
        tbuf.syncbuf.bidirectional = mode tbuf.clink.con := by
  induction tbufs generalizing mblk sbufs with
  | nil => exact ⟨hsbufs, htbufs⟩
  | cons tbuf tbufs ih =>
      rw [receive]
      split
      · exact ⟨hsbufs, htbufs⟩
      · obtain ⟨-, hturn, hmode⟩ :=
          receiveTargetBuffer_tracks hsbufs (htbufs tbuf (List.mem_cons_self ..))
        obtain ⟨hrest, hmodes⟩ := ih hturn fun t ht =>
          htbufs t (List.mem_cons_of_mem _ ht)
        constructor
        · exact hrest
        · intro t ht
          rcases List.mem_cons.mp ht with rfl | ht
          · exact hmode
          · exact hmodes t ht

theorem LinkedBlock.Tracks.receive (h : block.Tracks mode) :
    block.receive.Tracks mode := by
  obtain ⟨hsbufs, htbufs⟩ := receive_tracks h.sbufs h.tbufs
  exact ⟨hsbufs, htbufs⟩

/-- Bytes of the block changed, then the range they lie in was marked. -/
theorem LinkedBlock.Tracks.invalidate
    (h : block.Tracks mode) {startAddr endAddr : ℤ}
    (hsbufs : block'.sbufs = block.sbufs) (htbufs : block'.tbufs = block.tbufs)
    (hnbytes : block'.mblk.nbytes = block.mblk.nbytes)
    (hinside : ∀ i, block'.mblk.buf i ≠ block.mblk.buf i →
      startAddr ≤ i ∧ i ≤ endAddr) :
    (block'.invalidate startAddr endAddr).Tracks mode where
  sbufs := by
    intro sbuf hsbuf
    obtain ⟨before, hbefore, rfl⟩ := List.mem_map.mp hsbuf
    rw [hsbufs] at hbefore
    exact (h.sbufs before hbefore).invalidate hnbytes hinside
  tbufs := by
    intro tbuf htbuf
    have hkept : tbuf ∈ block'.tbufs := htbuf
    rw [htbufs] at hkept
    exact h.tbufs tbuf hkept

theorem storeBytes_changes {addr : ℤ} {bytes : List UInt8} {i : ℤ}
    (hchanged : (block.storeBytes addr bytes).mblk.buf i ≠ block.mblk.buf i) :
    addr ≤ i ∧ i < addr + bytes.length := by
  by_contra hout
  apply hchanged
  have houtside : i < addr ∨ addr + bytes.length ≤ i := by omega
  exact Segment.combineAt_of_outside (fun _ new => new) block.mblk.buf addr bytes houtside

theorem LinkedBlock.Tracks.write (h : block.Tracks mode) (addr : ℤ) (data : List UInt8) :
    (block.write addr data).Tracks mode := by
  unfold LinkedBlock.write Iocom.write
  split
  · exact h
  · have hinside : ∀ i, (block.mblk.store addr data).buf i ≠ block.mblk.buf i →
        addr ≤ i ∧ i ≤ addr + block.mblk.writeCount addr data.length - 1 := by
      intro i hchanged
      by_contra hout
      exact hchanged (block.mblk.store_of_outside addr data (by omega))
    let stored := { block with mblk := block.mblk.store addr data }
    exact @LinkedBlock.Tracks.invalidate mode block stored h _ _ rfl rfl rfl hinside

/-! ## Signals -/

/-- Bytes stored at an address, which the marked range contains. -/
theorem LinkedBlock.Tracks.storeBytes
    (h : block.Tracks mode) {addr endAddr : ℤ} {bytes : List UInt8}
    (hend : addr + bytes.length ≤ endAddr + 1) :
    ((block.storeBytes addr bytes).invalidate addr endAddr).Tracks mode := by
  have hinside : ∀ i, (block.storeBytes addr bytes).mblk.buf i ≠ block.mblk.buf i →
      addr ≤ i ∧ i ≤ endAddr := by
    intro i hchanged
    have hbytes := storeBytes_changes hchanged
    omega
  exact @LinkedBlock.Tracks.invalidate mode block (block.storeBytes addr bytes) h _ _
    rfl rfl rfl hinside

theorem LinkedBlock.Tracks.setSignal
    (h : block.Tracks mode) (osal : SignalOsal) (signal : Signal) (v : SignalValue) :
    (block.setSignal osal signal v).1.Tracks mode := by
  unfold LinkedBlock.setSignal
  dsimp only
  generalize (if signal.typeId = .boolean then 0 else typeSize signal.typeId) = typeSz
  split
  · exact h
  · apply h.storeBytes
    rw [List.length_cons, List.length_map, List.length_range]
    omega

theorem LinkedBlock.Tracks.setString
    (h : block.Tracks mode) (signal : Signal) (str : List UInt8) (stateBits : UInt8) :
    (block.setString signal str stateBits).1.Tracks mode := by
  unfold LinkedBlock.setString
  dsimp only
  split
  · exact h
  · apply h.storeBytes
    rw [List.length_cons]
    omega

theorem LinkedBlock.Tracks.moveStr
    (h : block.Tracks mode) (osal : SignalOsal) (signal : Signal) (str : List UInt8)
    (stateBits : UInt8) : (block.moveStr osal signal str stateBits).1.Tracks mode := by
  unfold LinkedBlock.moveStr
  split
  · exact h.setString signal str stateBits
  · exact h.setSignal osal signal _

theorem LinkedBlock.Tracks.move
    (h : block.Tracks mode) (osal : SignalOsal) (signals : List (Signal × SignalValue)) :
    (block.move osal signals).1.Tracks mode := by
  induction signals generalizing block with
  | nil => exact h
  | cons first signals ih =>
      apply ih
      unfold LinkedBlock.moveSignal
      split
      · exact h.setString first.1 _ _
      · exact h.setSignal osal first.1 first.2

/-- What `ioc_move_array` stores besides the state byte. -/
theorem storeArray_changes {addr start : ℤ} {stateBits : UInt8} {bytes : List UInt8} {i : ℤ}
    (hchanged : ((block.storeBytes addr [stateBits]).storeBytes start bytes).mblk.buf i ≠
      block.mblk.buf i) :
    i = addr ∧ block.mblk.buf addr ≠ stateBits ∨
      start ≤ i ∧ i < start + bytes.length := by
  by_cases hstate : ((block.storeBytes addr [stateBits]).storeBytes start bytes).mblk.buf i =
      (block.storeBytes addr [stateBits]).mblk.buf i
  · left
    rw [hstate] at hchanged
    have haddr := storeBytes_changes hchanged
    rw [List.length_singleton] at haddr
    obtain rfl : i = addr := by omega
    constructor
    · rfl
    · intro hsame
      apply hchanged
      rw [hsame]
      unfold LinkedBlock.storeBytes Segment.combineAt
      dsimp only
      rw [if_pos le_rfl, sub_self]
      rfl
  · right
    exact storeBytes_changes hstate

theorem LinkedBlock.Tracks.of_unchanged
    (h : block.Tracks mode) (hsbufs : block'.sbufs = block.sbufs)
    (htbufs : block'.tbufs = block.tbufs)
    (hnbytes : block'.mblk.nbytes = block.mblk.nbytes)
    (hbuf : ∀ i, block'.mblk.buf i = block.mblk.buf i) : block'.Tracks mode where
  sbufs := by
    intro sbuf hsbuf
    rw [hsbufs] at hsbuf
    apply (h.sbufs sbuf hsbuf).of_sameSetup ⟨rfl, rfl, rfl⟩
    intro _ hcovers hkey i hlo hhi hdiff
    rw [hbuf] at hdiff
    exact hcovers hkey i hlo (hnbytes ▸ hhi) hdiff
  tbufs := by
    intro tbuf htbuf
    rw [htbufs] at htbuf
    exact h.tbufs tbuf htbuf

theorem LinkedBlock.Tracks.moveArray
    (h : block.Tracks mode) (osal : SignalOsal) (signal : Signal) (offset : ℕ)
    (array : List UInt8) (n : ℕ) (stateBits : UInt8) :
    (block.moveArray osal signal offset array n stateBits).1.Tracks mode := by
  unfold LinkedBlock.moveArray
  dsimp only
  generalize (if signal.typeId = .boolean then (if n = 1 then 0 else (n + 7) / 8) else n) = nn
  have hclipped : 0 ≤ (if signal.n < n + offset then (signal.n : ℤ) - offset else n) + offset := by
    split <;> omega
  generalize (if signal.n < n + offset then (signal.n : ℤ) - offset else n) = clipped at hclipped
  split
  · exact h
  split
  · -- A boolean array: the state byte and the packed bits are marked.
    apply h.storeBytes
    rw [List.length_cons]
    split
    next hmany =>
        rw [packBooleans_length, List.length_take]
        omega
    next =>
        rw [List.length_nil]
        omega
  · have hsize : (0 : ℤ) ≤ typeSize signal.typeId := Int.natCast_nonneg _
    have hoffset : (0 : ℤ) ≤ offset * typeSize signal.typeId :=
      Int.mul_nonneg (Int.natCast_nonneg _) hsize
    have hend : (0 : ℤ) ≤ clipped * typeSize signal.typeId + offset * typeSize signal.typeId := by
      rw [← add_mul]
      exact Int.mul_nonneg hclipped hsize
    generalize clipped * (typeSize signal.typeId : ℤ) = bytes at hend
    generalize (offset : ℤ) * (typeSize signal.typeId : ℤ) = skipped at hend hoffset
    have hlength : ((array.take bytes.toNat).length : ℤ) ≤ bytes.toNat := by
      rw [List.length_take]
      omega
    split
    next hstate =>
        refine @LinkedBlock.Tracks.invalidate mode block
          ((block.storeBytes signal.addr [stateBits]).storeBytes _ _) h _ _ rfl rfl rfl ?_
        intro i hchanged
        rcases storeArray_changes hchanged with ⟨rfl, -⟩ | hdata <;> omega
    next hstate =>
        split
        · refine @LinkedBlock.Tracks.invalidate mode block
            ((block.storeBytes signal.addr [stateBits]).storeBytes _ _) h _ _ rfl rfl rfl ?_
          intro i hchanged
          rcases storeArray_changes hchanged with ⟨-, hother⟩ | hdata
          · exact absurd hother hstate
          · omega
        · refine @LinkedBlock.Tracks.of_unchanged mode block
            ((block.storeBytes signal.addr [stateBits]).storeBytes _ _) h rfl rfl rfl ?_
          intro i
          by_contra hchanged
          rcases storeArray_changes hchanged with ⟨-, hother⟩ | hdata
          · exact absurd hother hstate
          · omega

/-! ## Links -/

/-- The other end of a connection, and the flags of the connection: what links
a block is the same every time its info arrives. -/
structure Peer where
  connectUp : Bool
  bidirectionalMblks : Bool
  info : MemoryBlockInfo

/-- Whether the buffers of a connection have change bits: the flag left when
`ioc_mbinfo_received` links the first of them. -/
def Peer.usesChangeBits (flags : MblkFlags) (peer : Peer) : Bool :=
  let up := flags.up && peer.info.up
  let down := flags.down && peer.info.down
  let source := if peer.connectUp then up else down
  let target := if peer.connectUp then down else up
  let bdflag := peer.bidirectionalMblks && flags.bidirectional && peer.info.bidirectional
  let sourceFlag := bdflag && !(source && peer.connectUp)
  if source then sourceFlag else sourceFlag && !(target && !peer.connectUp)

variable {con : ConnectionLink} {info : MemoryBlockInfo}

theorem LinkedBlock.Tracks.mbinfoNewSbuf
    (h : block.Tracks mode) : (block.mbinfoNewSbuf con info (mode con.con)).Tracks mode := by
  unfold LinkedBlock.mbinfoNewSbuf
  split
  · exact h
  · constructor
    · intro sbuf hsbuf
      rcases List.mem_append.mp hsbuf with hsbuf | hsbuf
      · exact h.sbufs sbuf hsbuf
      · rw [List.mem_singleton] at hsbuf
        subst hsbuf
        apply SourceBuffer.Tracks.synchronize
        constructor
        · intro hbuf
          have hnonstatic : (!block.mblk.flags.static) = true := hbuf
          unfold initializeSourceBuffer
          rw [hnonstatic, Bool.true_and]
        · intro _ hkey
          cases hkey
    · exact h.tbufs

theorem LinkedBlock.Tracks.mbinfoNewTbuf
    (h : block.Tracks mode) : (block.mbinfoNewTbuf con info (mode con.con)).Tracks mode := by
  unfold LinkedBlock.mbinfoNewTbuf
  split
  · exact h
  · constructor
    · exact h.sbufs
    · intro tbuf htbuf
      rcases List.mem_append.mp htbuf with htbuf | htbuf
      · split at htbuf
        · exact h.tbufs tbuf htbuf
        · exact h.tbufs tbuf (List.mem_filter.mp htbuf).1
      · rw [List.mem_singleton] at htbuf
        subst htbuf
        rfl

def LinkedBlock.HasTbuf (block : LinkedBlock) (con : ℕ) : Prop :=
  (block.tbufs.any fun tbuf => decide (tbuf.clink.con = con)) = true

theorem LinkedBlock.mbinfoNewTbuf_hasTbuf (flag : Bool) :
    (block.mbinfoNewTbuf con info flag).HasTbuf con.con := by
  unfold LinkedBlock.mbinfoNewTbuf LinkedBlock.HasTbuf
  split
  next hhas => exact hhas
  next =>
      rw [List.any_append, Bool.or_eq_true]
      right
      exact List.any_eq_true.mpr ⟨_, List.mem_singleton_self _, decide_eq_true rfl⟩

theorem LinkedBlock.HasTbuf.mbinfoNewTbuf (h : block.HasTbuf con.con) (flag : Bool) :
    block.mbinfoNewTbuf con info flag = block :=
  if_pos h

/-- What linking a buffer with change bits or without keeps, whichever of the two
the flags give, `ioc_mbinfo_received` keeps. -/
theorem LinkedBlock.link_mode_rule
    {P : LinkedBlock → Prop} (h : P block) (peer : Peer) {bidirectional : Bool}
    (hcon : con.connectUp = peer.connectUp)
    (hmode : bidirectional = peer.usesChangeBits block.mblk.flags)
    (hsbuf : ∀ b, P b → P (b.mbinfoNewSbuf con peer.info bidirectional))
    (htbuf : ∀ b, P b → P (b.mbinfoNewTbuf con peer.info bidirectional)) :
    P (block.link con peer.bidirectionalMblks peer.info) := by
  unfold LinkedBlock.link
  unfold Peer.usesChangeBits at hmode
  dsimp only at hmode ⊢
  rw [← hcon] at hmode
  generalize (if con.connectUp then block.mblk.flags.up && peer.info.up
    else block.mblk.flags.down && peer.info.down) = source at hmode ⊢
  generalize (if con.connectUp then block.mblk.flags.down && peer.info.down
    else block.mblk.flags.up && peer.info.up) = target at hmode ⊢
  generalize (peer.bidirectionalMblks && block.mblk.flags.bidirectional &&
    peer.info.bidirectional) = bdflag at hmode ⊢
  cases source with
  | false =>
      rw [if_neg Bool.false_ne_true] at hmode ⊢
      rw [← hmode]
      cases target with
      | false => exact h
      | true =>
          rw [if_pos rfl]
          cases bidirectional with
          | true => exact htbuf _ (hsbuf _ h)
          | false => exact htbuf _ h
  | true =>
      rw [if_pos rfl] at hmode ⊢
      rw [← hmode]
      cases bidirectional with
      | true =>
          -- The target buffer is made with the source buffer; no other replaces it.
          have hlinked := htbuf _ (hsbuf _ h)
          have hhas := @LinkedBlock.mbinfoNewTbuf_hasTbuf
            (block.mbinfoNewSbuf con peer.info true) con peer.info true
          rw [if_pos rfl]
          cases target with
          | false => exact hlinked
          | true =>
              rw [if_pos rfl]
              cases con.connectUp with
              | false =>
                  have hkept := @LinkedBlock.HasTbuf.mbinfoNewTbuf _ con peer.info hhas false
                  exact hkept.symm ▸ hlinked
              | true => exact htbuf _ (hsbuf _ hlinked)
      | false =>
          rw [if_neg Bool.false_ne_true]
          cases target with
          | false => exact hsbuf _ h
          | true => exact htbuf _ (hsbuf _ h)

theorem LinkedBlock.Tracks.link
    (h : block.Tracks mode) (peer : Peer) (hcon : con.connectUp = peer.connectUp)
    (hmode : mode con.con = peer.usesChangeBits block.mblk.flags) :
    (block.link con peer.bidirectionalMblks peer.info).Tracks mode := by
  apply LinkedBlock.link_mode_rule h peer hcon hmode
  · exact fun b hb => hb.mbinfoNewSbuf
  · exact fun b hb => hb.mbinfoNewTbuf

/-! ## Runs -/

/-- What happens to a memory block: it is linked to a connection, the
application and signals write it, data arrives, is received and forwarded, and
snapshots are taken and sent.  `peers` are the other ends of the connections. -/
inductive BlockAction where
  | mbinfoReceived (con : ℕ)
  | write (addr : ℤ) (data : List UInt8)
  | writeString (addr : ℤ) (str : List UInt8) (n : ℕ)
  | clear (addr : ℤ) (n : ℕ)
  | move (signals : List (Signal × SignalValue))
  | moveStr (signal : Signal) (str : List UInt8) (stateBits : UInt8)
  | moveArray (signal : Signal) (offset : ℕ) (array : List UInt8) (n : ℕ)
      (stateBits : UInt8)
  | invalidate (pos : ℕ) (startAddr endAddr : ℤ)
  | synchronize (pos : ℕ)
  | send
  | makeDataFrame (pos : ℕ) (con : Connection)
  | storeFrame (pos : ℕ) (frame : Frame)
  | receive
  | releaseBuffers (con : ℕ)

def LinkedBlock.act
    (osal : SignalOsal) (peers : ℕ → Peer) (block : LinkedBlock) :
    BlockAction → LinkedBlock
  | .mbinfoReceived con =>
      block.link ⟨con, (peers con).connectUp⟩ (peers con).bidirectionalMblks
        (peers con).info
  | .write addr data => block.write addr data
  | .writeString addr str n => block.writeString addr str n
  | .clear addr n => block.clear addr n
  | .move signals => (block.move osal signals).1
  | .moveStr signal str stateBits => (block.moveStr osal signal str stateBits).1
  | .moveArray signal offset array n stateBits =>
      (block.moveArray osal signal offset array n stateBits).1
  | .invalidate pos startAddr endAddr =>
      { block with
        sbufs := block.sbufs.modify pos fun sbuf =>
          sbuf.invalidate block.mblk startAddr endAddr }
  | .synchronize pos =>
      { block with
        sbufs := block.sbufs.modify pos fun sbuf => sbuf.synchronize block.mblk }
  | .send => block.send
  | .makeDataFrame pos con => block.makeDataFrame pos con
  | .storeFrame pos frame =>
      { block with
        tbufs := block.tbufs.modify pos fun tbuf => (tbuf.storeFrame frame).2 }
  | .receive => block.receive
  | .releaseBuffers con => block.releaseBuffers con

def BlockStart (flags : MblkFlags) (block : LinkedBlock) : Prop :=
  block.mblk.flags = flags ∧ block.sbufs = [] ∧ block.tbufs = []

def BlockStep (osal : SignalOsal) (peers : ℕ → Peer) (block block' : LinkedBlock) : Prop :=
  ∃ action, block' = block.act osal peers action

theorem receive_flags
    (mblk : MemoryBlock) (sbufs : List SourceBuffer) (tbufs : List TargetBuffer) :
    (receive mblk sbufs tbufs).1.flags = mblk.flags := by
  induction tbufs generalizing mblk sbufs with
  | nil => rfl
  | cons tbuf tbufs ih =>
      rw [receive]
      split
      · rfl
      · refine (ih _ _).trans ?_
        unfold receiveTargetBuffer
        split <;> rfl

theorem LinkedBlock.move_flags
    (osal : SignalOsal) (block : LinkedBlock) (signals : List (Signal × SignalValue)) :
    (block.move osal signals).1.mblk.flags = block.mblk.flags := by
  induction signals generalizing block with
  | nil => rfl
  | cons first signals ih =>
      refine (ih _).trans ?_
      unfold LinkedBlock.moveSignal LinkedBlock.setString LinkedBlock.setSignal
      split
      · split <;> rfl
      · dsimp only
        generalize (if first.1.typeId = .boolean then 0 else typeSize first.1.typeId) = typeSz
        split <;> rfl

theorem LinkedBlock.act_flags
    (osal : SignalOsal) (peers : ℕ → Peer) (block : LinkedBlock) (action : BlockAction) :
    (block.act osal peers action).mblk.flags = block.mblk.flags := by
  have hwrite : ∀ addr data, (block.write addr data).mblk.flags = block.mblk.flags := by
    intro addr data
    unfold LinkedBlock.write Iocom.write
    split <;> rfl
  cases action with
  | mbinfoReceived con =>
      exact congrArg MemoryBlock.flags (LinkedBlock.link_mblk ..)
  | write addr data => exact hwrite addr data
  | writeString addr str n => exact hwrite addr _
  | clear addr n => exact hwrite addr _
  | move signals => exact LinkedBlock.move_flags osal block signals
  | moveStr signal str stateBits =>
      unfold LinkedBlock.act LinkedBlock.moveStr LinkedBlock.setString LinkedBlock.setSignal
      dsimp only
      split
      · split <;> rfl
      · generalize (if signal.typeId = .boolean then 0 else typeSize signal.typeId) = typeSz
        split <;> rfl
  | moveArray signal offset array n stateBits =>
      unfold LinkedBlock.act LinkedBlock.moveArray
      dsimp only
      generalize (if signal.typeId = .boolean then (if n = 1 then 0 else (n + 7) / 8)
        else n) = nn
      generalize (if signal.n < n + offset then (signal.n : ℤ) - offset else n) = clipped
      split
      · rfl
      split
      · rfl
      split
      · rfl
      split <;> rfl
  | receive => exact receive_flags _ _ _
  | _ => rfl

theorem TargetBuffer.storeFrame_bidirectional (tbuf : TargetBuffer) (frame : Frame) :
    (tbuf.storeFrame frame).2.syncbuf.bidirectional = tbuf.syncbuf.bidirectional := by
  have hsynchronize : ∀ sync : SynchronizedTargetBuffer,
      sync.synchronize.bidirectional = sync.bidirectional := by
    intro sync
    unfold SynchronizedTargetBuffer.synchronize
    dsimp only
    split
    · rfl
    split
    · rfl
    split <;> rfl
  unfold TargetBuffer.storeFrame TargetBuffer.storeDataFrame
  dsimp only
  generalize uncompress frame.payload _ frame.flags.compressed = decoded
  split
  · rfl
  split
  · rfl
  split
  · rfl
  split
  · rw [hsynchronize, (SynchronizedTargetBuffer.invalidate_rest _ _ _).2.2.1]
  · rw [(SynchronizedTargetBuffer.invalidate_rest _ _ _).2.2.1]

theorem LinkedBlock.Tracks.modify_sbufs
    (h : block.Tracks mode) (pos : ℕ) {f : SourceBuffer → SourceBuffer}
    (hf : ∀ sbuf, sbuf.Tracks mode block.mblk → (f sbuf).Tracks mode block.mblk) :
    LinkedBlock.Tracks mode { block with sbufs := block.sbufs.modify pos f } where
  sbufs := forall_mem_modify h.sbufs fun sbuf hsbuf =>
    hf sbuf (h.sbufs sbuf (List.mem_of_getElem? hsbuf))
  tbufs := h.tbufs

theorem LinkedBlock.Tracks.act
    (osal : SignalOsal) (peers : ℕ → Peer) (h : block.Tracks mode)
    (hmode : ∀ con, mode con = (peers con).usesChangeBits block.mblk.flags)
    (action : BlockAction) : (block.act osal peers action).Tracks mode := by
  cases action with
  | mbinfoReceived con => exact h.link (peers con) rfl (hmode con)
  | write addr data => exact h.write addr data
  | writeString addr str n => exact h.write addr _
  | clear addr n => exact h.write addr _
  | move signals => exact h.move osal signals
  | moveStr signal str stateBits => exact h.moveStr osal signal str stateBits
  | moveArray signal offset array n stateBits =>
      exact h.moveArray osal signal offset array n stateBits
  | invalidate pos startAddr endAddr =>
      apply h.modify_sbufs pos
      intro sbuf hsbuf
      exact hsbuf.invalidate rfl fun i hchanged => absurd rfl hchanged
  | synchronize pos => exact h.modify_sbufs pos fun sbuf hsbuf => hsbuf.synchronize
  | send =>
      constructor
      · intro sbuf hsbuf
        obtain ⟨before, hbefore, rfl⟩ := List.mem_map.mp hsbuf
        exact (h.sbufs before hbefore).synchronize
      · exact h.tbufs
  | makeDataFrame pos con =>
      apply h.modify_sbufs pos
      intro sbuf hsbuf
      cases hmade : Iocom.makeDataFrame con block.mblk sbuf with
      | none => exact hsbuf
      | some made =>
          obtain ⟨con', sbuf', frame⟩ := made
          obtain ⟨count, rfl⟩ := makeDataFrame_sbuf hmade
          exact hsbuf.advance count
  | storeFrame pos frame =>
      constructor
      · exact h.sbufs
      · apply forall_mem_modify h.tbufs
        intro tbuf htbuf
        rw [TargetBuffer.storeFrame_bidirectional, (tbuf.storeFrame_link frame).2]
        exact h.tbufs tbuf (List.mem_of_getElem? htbuf)
  | receive => exact h.receive
  | releaseBuffers con =>
      constructor
      · intro sbuf hsbuf
        exact h.sbufs sbuf (List.mem_filter.mp hsbuf).1
      · intro tbuf htbuf
        exact h.tbufs tbuf (List.mem_filter.mp htbuf).1

/-- The changed range of a source buffer covers what differs; without a range
nothing differs. -/
structure SourceBuffer.DirtyRangeCovers (sbuf : SourceBuffer) (mblk : MemoryBlock) :
    Prop where
  covers : ∀ i, 0 ≤ i → i < mblk.nbytes → mblk.buf i ≠ sbuf.syncbuf.buf i →
    sbuf.changed.rangeSet = true ∧
      sbuf.changed.startAddr ≤ i ∧ i ≤ sbuf.changed.endAddr
  same : sbuf.changed.rangeSet = false → sbuf.syncbuf.used = false →
    ∀ i, 0 ≤ i → i < mblk.nbytes → mblk.buf i = sbuf.syncbuf.buf i

/-- In every run, the changed range of a one directional source buffer covers
every byte which differs from the synchronized data, once the key frame has
been made. -/
theorem dirty_range_covers
    {osal : SignalOsal} {peers : ℕ → Peer} {flags : MblkFlags} {block : LinkedBlock}
    (hreached : TransitionSystem.Reachable (BlockStart flags) (BlockStep osal peers) block) :
    ∀ sbuf ∈ block.sbufs, sbuf.syncbuf.hasBuf = true →
      sbuf.syncbuf.bidirectional = false → sbuf.syncbuf.makeKeyframe = false →
      sbuf.DirtyRangeCovers block.mblk := by
  have hinvariant : block.mblk.flags = flags ∧
      block.Tracks (fun con => (peers con).usesChangeBits flags) := by
    refine TransitionSystem.Reachable.invariant
      (fun b => b.mblk.flags = flags ∧
        b.Tracks fun con => (peers con).usesChangeBits flags) ?_ ?_ hreached
    · rintro b ⟨hflags, hsbufs, htbufs⟩
      refine ⟨hflags, ?_, ?_⟩
      · rw [hsbufs]
        intro sbuf hsbuf
        cases hsbuf
      · rw [htbufs]
        intro tbuf htbuf
        cases htbuf
    · rintro b b' ⟨hflags, htracks⟩ ⟨action, rfl⟩
      constructor
      · rw [LinkedBlock.act_flags, hflags]
      · apply htracks.act osal peers
        intro con
        rw [hflags]
  intro sbuf hsbuf hbuf honeWay hkey
  have hcovers := (hinvariant.2.sbufs sbuf hsbuf).covers ⟨hbuf, honeWay⟩ hkey
  constructor
  · exact hcovers
  · intro hunset _ i hlo hhi
    by_contra hdiff
    obtain ⟨hset, -⟩ := hcovers i hlo hhi hdiff
    rw [hunset] at hset
    cases hset

def exportBlock : LinkedBlock where
  name := ⟨"exp", "gina", 1, "iocafenet"⟩
  dynamic := false
  mblk := ⟨8, ⟨false, true, false, false, false⟩, 24, true, fun _ => 0⟩
  sbufs := []
  tbufs := []

def exportPeer : Peer where
  connectUp := true
  bidirectionalMblks := false
  info := ⟨exportBlock.name, 9, 24, false, true, false⟩

def exportOsal : SignalOsal := ⟨1, 2, fun _ _ _ => 0, fun _ => [], fun _ _ => 0⟩

def exportWritten : LinkedBlock :=
  (exportBlock.act exportOsal (fun _ => exportPeer) (.mbinfoReceived 0)).act exportOsal
    (fun _ => exportPeer) (.write 3 [7])

theorem exportWritten_sbufs : exportWritten.sbufs.length = 1 := rfl

theorem dirty_range_covers_exportWritten :
    (exportWritten.sbufs.get ⟨0, exportWritten_sbufs ▸ Nat.one_pos⟩).DirtyRangeCovers
      exportWritten.mblk :=
  dirty_range_covers
    (.next (.next (.start ⟨rfl, rfl, rfl⟩) ⟨.mbinfoReceived 0, rfl⟩) ⟨.write 3 [7], rfl⟩)
    _ (List.get_mem _ _) rfl rfl rfl

end Iocom
