import Iocom.MemoryBlock

/-!
# Source buffers

The operations of `ioc_source_buffer.c`: marking an address range as changed,
and taking a snapshot of the changed bytes into the synchronization buffer,
where it waits to be sent as a key frame or as differences modulo 256.
-/

namespace Iocom

/-- `ioc_initialize_source_buffer`. -/
def initializeSourceBuffer
    (con : ConnectionLink) (mblk : MemoryBlock) (remoteMblkId : ℤ)
    (bidirectional : Bool) : SourceBuffer where
  remoteMblkId := remoteMblkId
  changed := ⟨false, 0, 0⟩
  syncbuf :=
    { hasBuf := !mblk.flags.static
      buf := fun _ => 0
      delta := fun _ => 0
      nbytes :=
        if mblk.flags.static then mblk.nbytes
        else transferBytes mblk.nbytes bidirectional
      ndata := if mblk.flags.static then 0 else mblk.nbytes
      bidirectional := !mblk.flags.static && bidirectional
      used := false
      makeKeyframe := true
      isKeyframe := false
      startAddr := 0
      endAddr := 0
      bidirStartAddr := 0
      bidirEndAddr := 0
      bidirRangeSet := false }
  clink := con

/-- The part of a written range which `ioc_sbuf_invalidate` marks: ranges of
less than 256 bytes are shrunk to what differs from the synchronized data,
except in bidirectional buffers. -/
def SourceBuffer.invalidatedPart
    (sbuf : SourceBuffer) (mblk : MemoryBlock) (startAddr endAddr : ℤ) :
    Option (ℤ × ℤ) :=
  if sbuf.syncbuf.bidirectional || !sbuf.syncbuf.hasBuf ||
      decide (256 ≤ endAddr - startAddr) || decide (endAddr < startAddr) then
    some (startAddr, endAddr)
  else
    let first := Segment.firstDifference mblk.buf sbuf.syncbuf.buf startAddr
      (endAddr - startAddr + 1).toNat
    if endAddr < first then none
    else
      some (first, Segment.lastDifference mblk.buf sbuf.syncbuf.buf endAddr
        (endAddr - first).toNat)

def InvalidatedRange.add
    (changed : InvalidatedRange) (startAddr endAddr : ℤ) : InvalidatedRange :=
  if changed.rangeSet then
    { changed with
      startAddr := min startAddr changed.startAddr
      endAddr := max endAddr changed.endAddr }
  else ⟨true, startAddr, endAddr⟩

/-- `ioc_sbuf_invalidate_bytes`. -/
def SourceBuffer.invalidateBytes
    (sbuf : SourceBuffer) (startAddr endAddr : ℤ) : SourceBuffer :=
  if endAddr < startAddr ∨ !sbuf.syncbuf.hasBuf then sbuf
  else
    { sbuf with
      syncbuf.buf :=
        setChangeBits sbuf.syncbuf.buf sbuf.syncbuf.ndata startAddr endAddr }

/-- `ioc_sbuf_invalidate`. -/
def SourceBuffer.invalidate
    (sbuf : SourceBuffer) (mblk : MemoryBlock) (startAddr endAddr : ℤ) :
    SourceBuffer :=
  match sbuf.invalidatedPart mblk startAddr endAddr with
  | none => sbuf
  | some (first, last) =>
      let marked := { sbuf with changed := sbuf.changed.add first last }
      if sbuf.syncbuf.bidirectional then marked.invalidateBytes first last
      else marked

/-- The changed range which `ioc_sbuf_synchronize` is about to send, after it
has been shrunk from both ends. -/
def SourceBuffer.changedPart
    (sbuf : SourceBuffer) (mblk : MemoryBlock) : ℤ × ℤ :=
  if sbuf.syncbuf.bidirectional then
    (sbuf.changed.startAddr, sbuf.changed.endAddr)
  else
    Segment.shrink sbuf.syncbuf.buf mblk.buf sbuf.changed.startAddr
      sbuf.changed.endAddr

/-- The end of `ioc_sbuf_synchronize`: the range is recorded and copied, and in
a bidirectional buffer its change bits are moved over to the delta. -/
def SynchronizedSourceBuffer.load
    (sync : SynchronizedSourceBuffer) (mblk : MemoryBlock)
    (startAddr endAddr : ℤ) : SynchronizedSourceBuffer :=
  let loaded :=
    { sync with
      startAddr := startAddr
      endAddr := endAddr
      used := true
      bidirRangeSet := false }
  if sync.hasBuf then
    let copied := Segment.copyRange sync.buf mblk.buf startAddr endAddr
    if sync.bidirectional then
      let pos := sync.ndata + startAddr / 8
      let last := sync.ndata + endAddr / 8
      { loaded with
        buf := clearRange copied pos last
        delta := Segment.copyRange sync.delta copied pos last
        bidirStartAddr := pos
        bidirEndAddr := last
        bidirRangeSet := true }
    else { loaded with buf := copied }
  else loaded

/-- `ioc_sbuf_synchronize`. -/
def SourceBuffer.synchronize
    (sbuf : SourceBuffer) (mblk : MemoryBlock) : SourceBuffer :=
  let sync := sbuf.syncbuf
  if (!sbuf.changed.rangeSet && !sync.makeKeyframe) || sync.used then sbuf
  else
    let taken := { sbuf with changed.rangeSet := false }
    if sync.makeKeyframe then
      let keyframe :=
        { sync with
          delta := Segment.copyRange sync.delta mblk.buf 0 (mblk.nbytes - 1)
          makeKeyframe := false
          isKeyframe := true }
      { taken with syncbuf := keyframe.load mblk 0 (mblk.nbytes - 1) }
    else if !sync.hasBuf then
      { taken with
        syncbuf := { sync with isKeyframe := false }.load mblk
          sbuf.changed.startAddr sbuf.changed.endAddr }
    else
      let part := sbuf.changedPart mblk
      if part.2 < part.1 then taken
      else
        let differences :=
          { sync with
            delta := fun i =>
              if part.1 ≤ i ∧ i ≤ part.2 then mblk.buf i - sync.buf i
              else sync.delta i
            isKeyframe := false }
        { taken with syncbuf := differences.load mblk part.1 part.2 }

/-! ## What marking a range does -/

def InvalidatedRange.Covers (changed : InvalidatedRange) (i : ℤ) : Prop :=
  changed.rangeSet = true ∧ changed.startAddr ≤ i ∧ i ≤ changed.endAddr

def InvalidatedRange.Within (changed : InvalidatedRange) (n : ℤ) : Prop :=
  changed.rangeSet = true →
    0 ≤ changed.startAddr ∧ changed.startAddr ≤ changed.endAddr ∧
      changed.endAddr < n

theorem InvalidatedRange.Covers.add
    {changed : InvalidatedRange} {i : ℤ} (hi : changed.Covers i)
    (startAddr endAddr : ℤ) :
    (changed.add startAddr endAddr).Covers i := by
  obtain ⟨hset, hlo, hhi⟩ := hi
  simp only [InvalidatedRange.add, hset, if_true, InvalidatedRange.Covers,
    true_and]
  omega

theorem InvalidatedRange.covers_add
    (changed : InvalidatedRange) {startAddr endAddr i : ℤ}
    (hlo : startAddr ≤ i) (hhi : i ≤ endAddr) :
    (changed.add startAddr endAddr).Covers i := by
  unfold InvalidatedRange.add InvalidatedRange.Covers
  split <;> simp_all

theorem InvalidatedRange.Within.add
    {changed : InvalidatedRange} {n startAddr endAddr : ℤ}
    (hchanged : changed.Within n)
    (hstart : 0 ≤ startAddr) (hle : startAddr ≤ endAddr) (hend : endAddr < n) :
    (changed.add startAddr endAddr).Within n := by
  intro _
  unfold InvalidatedRange.add
  split
  · rename_i hset
    have := hchanged hset
    simp only
    omega
  · exact ⟨hstart, hle, hend⟩

/-- What `ioc_sbuf_invalidate` leaves out of a written range did not change. -/
theorem SourceBuffer.invalidatedPart_spec
    (sbuf : SourceBuffer) (mblk : MemoryBlock) {startAddr endAddr : ℤ}
    (hle : startAddr ≤ endAddr) :
    match sbuf.invalidatedPart mblk startAddr endAddr with
    | none =>
        sbuf.syncbuf.bidirectional = false ∧
          ∀ i, startAddr ≤ i → i ≤ endAddr → mblk.buf i = sbuf.syncbuf.buf i
    | some (first, last) =>
        startAddr ≤ first ∧ first ≤ last ∧ last ≤ endAddr ∧
          (sbuf.syncbuf.bidirectional = true → first = startAddr ∧ last = endAddr) ∧
          ∀ i, startAddr ≤ i → i ≤ endAddr → ¬(first ≤ i ∧ i ≤ last) →
            mblk.buf i = sbuf.syncbuf.buf i := by
  unfold SourceBuffer.invalidatedPart
  split
  · rename_i hnone
    split at hnone
    · contradiction
    rename_i hshrink
    simp only [Bool.or_eq_true, Bool.not_eq_true', decide_eq_true_eq, not_or,
      Bool.not_eq_true] at hshrink
    have hbounds := Segment.firstDifference_bounds mblk.buf sbuf.syncbuf.buf
      startAddr (endAddr - startAddr + 1).toNat
    dsimp only at hnone
    split at hnone
    · rename_i hpast
      refine ⟨hshrink.1.1.1, fun i hlo hhi => ?_⟩
      exact Segment.eq_of_lt_firstDifference _ _ hlo (lt_of_le_of_lt hhi hpast)
    · contradiction
  · rename_i first last hsome
    split at hsome
    · simp only [Option.some.injEq, Prod.mk.injEq] at hsome
      obtain ⟨rfl, rfl⟩ := hsome
      exact ⟨le_rfl, hle, le_rfl, fun _ => ⟨rfl, rfl⟩, fun i hlo hhi hout =>
        absurd ⟨hlo, hhi⟩ hout⟩
    rename_i hshrink
    simp only [Bool.or_eq_true, Bool.not_eq_true', decide_eq_true_eq, not_or,
      Bool.not_eq_true] at hshrink
    have hfirst := Segment.firstDifference_bounds mblk.buf sbuf.syncbuf.buf
      startAddr (endAddr - startAddr + 1).toNat
    dsimp only at hsome
    split at hsome
    · contradiction
    rename_i hpast
    simp only [Option.some.injEq, Prod.mk.injEq] at hsome
    obtain ⟨hfirst_eq, hlast_eq⟩ := hsome
    rw [hfirst_eq] at hfirst hpast hlast_eq
    have hlast := Segment.lastDifference_bounds mblk.buf sbuf.syncbuf.buf
      endAddr (endAddr - first).toNat
    rw [hlast_eq] at hlast
    refine ⟨hfirst.1, by omega, hlast.2, fun hbidir => ?_, fun i hlo hhi hout => ?_⟩
    · rw [hshrink.1.1.1] at hbidir
      contradiction
    · by_cases hi : i < first
      · rw [← hfirst_eq] at hi
        exact Segment.eq_of_lt_firstDifference _ _ hlo hi
      · have hi' : last < i := by omega
        rw [← hlast_eq] at hi'
        exact Segment.eq_of_lastDifference_lt _ _ hi' hhi

/-- What marking the bytes `startAddr .. endAddr` does: the changed range grows
to cover every one of them which differs from the synchronized data, or all of
them in a bidirectional buffer, where also their change bits are set. -/
structure SourceBuffer.Marks
    (sbuf sbuf' : SourceBuffer) (mblk : MemoryBlock) (startAddr endAddr : ℤ) :
    Prop where
  remoteMblkId : sbuf'.remoteMblkId = sbuf.remoteMblkId
  clink : sbuf'.clink = sbuf.clink
  syncbuf : sbuf'.syncbuf = { sbuf.syncbuf with buf := sbuf'.syncbuf.buf }
  data : ∀ i, i < sbuf.syncbuf.ndata → sbuf'.syncbuf.buf i = sbuf.syncbuf.buf i
  oneWay : sbuf.syncbuf.bidirectional = false → sbuf'.syncbuf = sbuf.syncbuf
  stillCovered : ∀ i, sbuf.changed.Covers i → sbuf'.changed.Covers i
  nowCovered :
    ∀ i, startAddr ≤ i → i ≤ endAddr →
      (sbuf.syncbuf.bidirectional = true ∨ mblk.buf i ≠ sbuf.syncbuf.buf i) →
        sbuf'.changed.Covers i
  within :
    ∀ n, endAddr < n → sbuf.changed.Within n → sbuf'.changed.Within n
  changeBits :
    sbuf.syncbuf.bidirectional = true →
      ∀ i, changeBit sbuf'.syncbuf.buf sbuf.syncbuf.ndata i =
        (changeBit sbuf.syncbuf.buf sbuf.syncbuf.ndata i ||
          decide (startAddr ≤ i ∧ i ≤ endAddr))

theorem SourceBuffer.invalidate_marks
    (sbuf : SourceBuffer) (mblk : MemoryBlock) {startAddr endAddr : ℤ}
    (hbuf : sbuf.syncbuf.hasBuf = true)
    (hstart : 0 ≤ startAddr) (hle : startAddr ≤ endAddr) :
    sbuf.Marks (sbuf.invalidate mblk startAddr endAddr) mblk
      startAddr endAddr := by
  have hpart := sbuf.invalidatedPart_spec mblk hle
  cases hsome : sbuf.invalidatedPart mblk startAddr endAddr with
  | none =>
      rw [hsome] at hpart
      obtain ⟨hone, heq⟩ := hpart
      have hsame : sbuf.invalidate mblk startAddr endAddr = sbuf := by
        simp [SourceBuffer.invalidate, hsome]
      rw [hsame]
      exact
        { remoteMblkId := rfl
          clink := rfl
          syncbuf := rfl
          data := fun _ _ => rfl
          oneWay := fun _ => rfl
          stillCovered := fun _ hi => hi
          nowCovered := fun i hlo hhi hdiff => by
            rcases hdiff with hbidir | hne
            · rw [hone] at hbidir
              contradiction
            · exact absurd (heq i hlo hhi) hne
          within := fun _ _ h => h
          changeBits := fun hbidir => by
            rw [hone] at hbidir
            contradiction }
  | some part =>
      obtain ⟨first, last⟩ := part
      rw [hsome] at hpart
      obtain ⟨hfirst, hfl, hlast, hbidir_range, hrest⟩ := hpart
      have hcover : ∀ i, startAddr ≤ i → i ≤ endAddr →
          (sbuf.syncbuf.bidirectional = true ∨
            mblk.buf i ≠ sbuf.syncbuf.buf i) →
          (sbuf.changed.add first last).Covers i := by
        intro i hlo hhi hdiff
        have hin : first ≤ i ∧ i ≤ last := by
          by_contra hout
          rcases hdiff with hbidir | hne
          · obtain ⟨rfl, rfl⟩ := hbidir_range hbidir
            exact hout ⟨hlo, hhi⟩
          · exact hne (hrest i hlo hhi hout)
        exact sbuf.changed.covers_add hin.1 hin.2
      have hwithin : ∀ n, endAddr < n → sbuf.changed.Within n →
          (sbuf.changed.add first last).Within n := fun n hn h =>
        h.add (by omega) hfl (by omega)
      cases hbidir : sbuf.syncbuf.bidirectional with
      | false =>
          have hmarked : sbuf.invalidate mblk startAddr endAddr =
              { sbuf with changed := sbuf.changed.add first last } := by
            simp [SourceBuffer.invalidate, hsome, hbidir]
          rw [hmarked]
          exact
            { remoteMblkId := rfl
              clink := rfl
              syncbuf := rfl
              data := fun _ _ => rfl
              oneWay := fun _ => rfl
              stillCovered := fun i hi => hi.add first last
              nowCovered := hcover
              within := hwithin
              changeBits := fun h => by
                rw [hbidir] at h
                contradiction }
      | true =>
          obtain ⟨rfl, rfl⟩ := hbidir_range hbidir
          have hmarked : sbuf.invalidate mblk first last =
              { sbuf with
                changed := sbuf.changed.add first last
                syncbuf.buf := setChangeBits sbuf.syncbuf.buf
                  sbuf.syncbuf.ndata first last } := by
            simp [SourceBuffer.invalidate, hsome, hbidir,
              SourceBuffer.invalidateBytes, hbuf, not_lt.mpr hle]
          rw [hmarked]
          exact
            { remoteMblkId := rfl
              clink := rfl
              syncbuf := rfl
              data := fun i hi =>
                setChangeBits_of_lt sbuf.syncbuf.buf hstart hle hi
              oneWay := fun h => by
                rw [hbidir] at h
                contradiction
              stillCovered := fun i hi => hi.add first last
              nowCovered := hcover
              within := hwithin
              changeBits := fun _ i =>
                changeBit_setChangeBits sbuf.syncbuf.buf
                  sbuf.syncbuf.ndata hle i }

/-! ## What taking a snapshot does -/

/-- What `ioc_sbuf_synchronize` leaves out of the changed range did not
change. -/
theorem SourceBuffer.changedPart_spec
    (sbuf : SourceBuffer) (mblk : MemoryBlock) :
    sbuf.changed.startAddr ≤ (sbuf.changedPart mblk).1 ∧
      (sbuf.changedPart mblk).2 ≤ sbuf.changed.endAddr ∧
      (sbuf.syncbuf.bidirectional = true →
        sbuf.changedPart mblk =
          (sbuf.changed.startAddr, sbuf.changed.endAddr)) ∧
      ∀ i, sbuf.changed.startAddr ≤ i → i ≤ sbuf.changed.endAddr →
        ¬((sbuf.changedPart mblk).1 ≤ i ∧ i ≤ (sbuf.changedPart mblk).2) →
          sbuf.syncbuf.buf i = mblk.buf i := by
  unfold SourceBuffer.changedPart
  split
  · rename_i hbidir
    exact ⟨le_rfl, le_rfl, fun _ => rfl, fun i hlo hhi hout =>
      absurd ⟨hlo, hhi⟩ hout⟩
  · rename_i hbidir
    have hshrink := Segment.shrink_spec sbuf.syncbuf.buf mblk.buf
      sbuf.changed.startAddr sbuf.changed.endAddr
    exact ⟨hshrink.1, hshrink.2.1, fun h => absurd h hbidir, hshrink.2.2⟩

/-- The range and the delta of a snapshot: the whole block for a key frame,
and otherwise what is left of the changed range, as differences. -/
structure SourceBuffer.SnapshotRange
    (sbuf : SourceBuffer) (mblk : MemoryBlock)
    (first last : ℤ) (delta : Mem) : Prop where
  keyframe :
    sbuf.syncbuf.makeKeyframe = true →
      first = 0 ∧ last = mblk.nbytes - 1 ∧
        ∀ i, first ≤ i → i ≤ last → delta i = mblk.buf i
  differences :
    sbuf.syncbuf.makeKeyframe = false →
      sbuf.changed.rangeSet = true ∧
        sbuf.changed.startAddr ≤ first ∧ first ≤ last ∧
        last ≤ sbuf.changed.endAddr ∧
        (∀ i, sbuf.changed.startAddr ≤ i → i ≤ sbuf.changed.endAddr →
          ¬(first ≤ i ∧ i ≤ last) → sbuf.syncbuf.buf i = mblk.buf i) ∧
        ∀ i, first ≤ i → i ≤ last →
          delta i = mblk.buf i - sbuf.syncbuf.buf i
  bidirectional :
    sbuf.syncbuf.makeKeyframe = false →
      sbuf.syncbuf.bidirectional = true →
        first = sbuf.changed.startAddr ∧ last = sbuf.changed.endAddr

/-- The three outcomes of `ioc_sbuf_synchronize`: it does nothing, it finds
that nothing has changed, or it takes a snapshot. -/
theorem SourceBuffer.synchronize_cases
    (sbuf : SourceBuffer) (mblk : MemoryBlock)
    (hbuf : sbuf.syncbuf.hasBuf = true)
    (hrange : sbuf.syncbuf.bidirectional = true → sbuf.changed.rangeSet = true →
      sbuf.changed.startAddr ≤ sbuf.changed.endAddr) :
    (sbuf.synchronize mblk = sbuf ∧
      (sbuf.syncbuf.used = true ∨
        sbuf.changed.rangeSet = false ∧ sbuf.syncbuf.makeKeyframe = false)) ∨
    (sbuf.syncbuf.used = false ∧ sbuf.syncbuf.makeKeyframe = false ∧
      sbuf.syncbuf.bidirectional = false ∧
      sbuf.synchronize mblk = { sbuf with changed.rangeSet := false } ∧
      ∀ i, sbuf.changed.Covers i → sbuf.syncbuf.buf i = mblk.buf i) ∨
    (sbuf.syncbuf.used = false ∧
      ∃ first last delta,
        sbuf.SnapshotRange mblk first last delta ∧
        sbuf.synchronize mblk =
          { sbuf with
            changed.rangeSet := false
            syncbuf :=
              { sbuf.syncbuf with
                delta := delta
                makeKeyframe := false
                isKeyframe := sbuf.syncbuf.makeKeyframe }.load
                mblk first last }) := by
  by_cases hidle :
      ((!sbuf.changed.rangeSet && !sbuf.syncbuf.makeKeyframe) ||
        sbuf.syncbuf.used) = true
  · left
    constructor
    · simp only [SourceBuffer.synchronize, hidle, if_true]
    · simp only [Bool.or_eq_true, Bool.and_eq_true, Bool.not_eq_true'] at hidle
      exact hidle.symm
  right
  have hstart := hidle
  simp only [Bool.or_eq_true, Bool.and_eq_true, Bool.not_eq_true', not_or,
    Bool.not_eq_true] at hstart
  obtain ⟨hwork, hfree⟩ := hstart
  cases hkey : sbuf.syncbuf.makeKeyframe with
  | true =>
      right
      refine ⟨hfree, 0, mblk.nbytes - 1,
        Segment.copyRange sbuf.syncbuf.delta mblk.buf 0 (mblk.nbytes - 1), ?_, ?_⟩
      · exact
          { keyframe := fun _ => ⟨rfl, rfl, fun i hlo hhi => by
              simp [hlo, hhi]⟩
            differences := fun h => by simp [hkey] at h
            bidirectional := fun h => by simp [hkey] at h }
      · simp [SourceBuffer.synchronize, hfree, hkey]
  | false =>
      have hset : sbuf.changed.rangeSet = true := by
        by_contra hunset
        exact hwork ⟨by simpa using hunset, hkey⟩
      have hpart := sbuf.changedPart_spec mblk
      by_cases hempty :
          (sbuf.changedPart mblk).2 < (sbuf.changedPart mblk).1
      · left
        have hone : sbuf.syncbuf.bidirectional = false := by
          by_contra hbidir
          have hbidir : sbuf.syncbuf.bidirectional = true := by simpa using hbidir
          have heq := hpart.2.2.1 hbidir
          have := hrange hbidir hset
          rw [heq] at hempty
          dsimp only at hempty
          omega
        refine ⟨hfree, rfl, hone, ?_, fun i hi => ?_⟩
        · simp [SourceBuffer.synchronize, hfree, hkey, hset, hbuf, hempty]
        · exact hpart.2.2.2 i hi.2.1 hi.2.2 (by omega)
      · right
        refine ⟨hfree, (sbuf.changedPart mblk).1, (sbuf.changedPart mblk).2,
          fun i =>
            if (sbuf.changedPart mblk).1 ≤ i ∧ i ≤ (sbuf.changedPart mblk).2 then
              mblk.buf i - sbuf.syncbuf.buf i
            else sbuf.syncbuf.delta i, ?_, ?_⟩
        · exact
            { keyframe := fun h => by simp [hkey] at h
              differences := fun _ =>
                ⟨hset, hpart.1, by omega, hpart.2.1, hpart.2.2.2,
                  fun i hlo hhi => by simp [hlo, hhi]⟩
              bidirectional := fun _ hbidir => by
                simp [hpart.2.2.1 hbidir] }
        · simp [SourceBuffer.synchronize, hfree, hkey, hset, hbuf, hempty]

end Iocom
