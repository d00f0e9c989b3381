import Iocom.Root
import Iocom.TargetBufferBounds

/-!
# Sizes of transfer buffers

A transfer buffer is allocated for the size its memory block has when the two
are linked.  Growing a block which is linked breaks the relation of the two
sizes; in every run which grows only unlinked blocks the sizes agree, and the
copies between a block and its buffers stay inside both.
-/

namespace Iocom

/-! ## What is copied -/

/-- The data which `ioc_sbuf_synchronize` compares and copies between the
memory block and the synchronized buffer. -/
def SourceBuffer.synchronizeCopies (sbuf : SourceBuffer) (mblk : MemoryBlock) :
    List (ℤ × ℤ) :=
  if ((!sbuf.changed.rangeSet && !sbuf.syncbuf.makeKeyframe) ||
      sbuf.syncbuf.used) || !sbuf.syncbuf.hasBuf then []
  else if sbuf.syncbuf.makeKeyframe then [(0, mblk.nbytes - 1)]
  else [(sbuf.changed.startAddr, sbuf.changed.endAddr)]

def SynchronizedSourceBuffer.bitsOf
    (sync : SynchronizedSourceBuffer) (range : ℤ × ℤ) : List (ℤ × ℤ) :=
  if sync.bidirectional then
    [(sync.ndata + range.1 / 8, sync.ndata + range.2 / 8)]
  else []

/-- The data which `ioc_receive_nolock` copies to the memory block. -/
def TargetBuffer.receiveCopies (tbuf : TargetBuffer) : List (ℤ × ℤ) :=
  if tbuf.syncbuf.bufUsed then
    [(tbuf.syncbuf.bufStartAddr, tbuf.syncbuf.bufEndAddr)]
  else []

/-- The part of a range which is sent after shrinking lies within it. -/
theorem SourceBuffer.changedPart_within
    (sbuf : SourceBuffer) (mblk : MemoryBlock) {i : ℤ}
    (hout : ¬(sbuf.changed.startAddr ≤ i ∧ i ≤ sbuf.changed.endAddr)) :
    ¬((sbuf.changedPart mblk).1 ≤ i ∧ i ≤ (sbuf.changedPart mblk).2) := by
  obtain ⟨hlo, hhi, -⟩ := sbuf.changedPart_spec mblk
  omega

/-- Loading a range changes the synchronized buffer there and at its change
bits only. -/
theorem SynchronizedSourceBuffer.load_of_outside
    (sync : SynchronizedSourceBuffer) (mblk : MemoryBlock) {first last i : ℤ}
    (hdata : ¬(first ≤ i ∧ i ≤ last))
    (hbits : ∀ w ∈ sync.bitsOf (first, last), ¬(w.1 ≤ i ∧ i ≤ w.2)) :
    (sync.load mblk first last).buf i = sync.buf i ∧
      (sync.load mblk first last).delta i = sync.delta i := by
  unfold SynchronizedSourceBuffer.load
  dsimp only
  cases hbuf : sync.hasBuf with
  | false => simp
  | true =>
      cases hbidir : sync.bidirectional with
      | false => simp [hdata]
      | true =>
          have hout := hbits
            (sync.ndata + first / 8, sync.ndata + last / 8) (by
              simp [SynchronizedSourceBuffer.bitsOf, hbidir])
          dsimp only at hout
          simp [hdata, hout]

/-- Taking a snapshot changes the synchronization buffers at the copied ranges
only. -/
theorem SourceBuffer.synchronize_of_outside
    (sbuf : SourceBuffer) (mblk : MemoryBlock) {i : ℤ}
    (hbuf : sbuf.syncbuf.hasBuf = true)
    (hout : ∀ w ∈ sbuf.synchronizeCopies mblk, ¬(w.1 ≤ i ∧ i ≤ w.2))
    (hbits : ∀ w ∈ sbuf.synchronizeCopies mblk, ∀ b ∈ sbuf.syncbuf.bitsOf w,
      ¬(b.1 ≤ i ∧ i ≤ b.2)) :
    (sbuf.synchronize mblk).syncbuf.buf i = sbuf.syncbuf.buf i ∧
      (sbuf.synchronize mblk).syncbuf.delta i = sbuf.syncbuf.delta i := by
  unfold SourceBuffer.synchronize
  unfold SourceBuffer.synchronizeCopies at hout hbits
  dsimp only
  split
  · exact ⟨rfl, rfl⟩
  rename_i hsome
  rw [if_neg (by simp only [hbuf, Bool.not_true, Bool.or_false]; exact hsome)]
    at hout hbits
  split
  · rename_i hkey
    rw [if_pos hkey] at hout hbits
    have hdata := hout _ (List.mem_singleton.mpr rfl)
    have hload := SynchronizedSourceBuffer.load_of_outside
      { sbuf.syncbuf with
        delta := Segment.copyRange sbuf.syncbuf.delta mblk.buf 0 (mblk.nbytes - 1)
        makeKeyframe := false
        isKeyframe := true } mblk hdata (hbits _ (List.mem_singleton.mpr rfl))
    refine ⟨hload.1, ?_⟩
    rw [hload.2]
    exact if_neg hdata
  rename_i hkey
  rw [if_neg hkey] at hout hbits
  have hdata := hout _ (List.mem_singleton.mpr rfl)
  have hpart := sbuf.changedPart_within mblk hdata
  rw [if_neg (by simp [hbuf])]
  split
  · exact ⟨rfl, rfl⟩
  · have hpartBits : ∀ b ∈ sbuf.syncbuf.bitsOf (sbuf.changedPart mblk),
        ¬(b.1 ≤ i ∧ i ≤ b.2) := by
      intro b hb
      cases hbidir : sbuf.syncbuf.bidirectional with
      | false => simp [SynchronizedSourceBuffer.bitsOf, hbidir] at hb
      | true =>
          rw [(sbuf.changedPart_spec mblk).2.2.1 hbidir] at hb
          exact hbits _ (List.mem_singleton.mpr rfl) b hb
    have hload := SynchronizedSourceBuffer.load_of_outside
      { sbuf.syncbuf with
        delta := fun i =>
          if (sbuf.changedPart mblk).1 ≤ i ∧ i ≤ (sbuf.changedPart mblk).2 then
            mblk.buf i - sbuf.syncbuf.buf i
          else sbuf.syncbuf.delta i
        isKeyframe := false } mblk hpart hpartBits
    refine ⟨hload.1, ?_⟩
    rw [hload.2]
    exact if_neg hpart

/-! ## Buffers which fit -/

/-- Sizes of memory blocks which leave the sizes of their transfer buffers
representable. -/
def BlockSize (n : ℤ) : Prop := 0 ≤ n ∧ transferBytes n true < 0x80000000

/-- A source buffer fits a memory block of `n` bytes. -/
structure SourceBuffer.Fits (sbuf : SourceBuffer) (n : ℤ) : Prop where
  ndata : sbuf.syncbuf.hasBuf = true → sbuf.syncbuf.ndata = n
  nbytes :
    sbuf.syncbuf.hasBuf = true →
      sbuf.syncbuf.nbytes =
        transferBytes sbuf.syncbuf.ndata sbuf.syncbuf.bidirectional
  changed : sbuf.changed.Within n

/-- A target buffer fits a memory block of `n` bytes. -/
structure TargetBuffer.Fits (tbuf : TargetBuffer) (n : ℤ) : Prop where
  ndata : tbuf.syncbuf.ndata = n
  consistent : tbuf.syncbuf.Consistent

structure LinkedBlock.Fits (block : LinkedBlock) : Prop where
  size : BlockSize block.mblk.nbytes
  sbufs : ∀ sbuf ∈ block.sbufs, sbuf.Fits block.mblk.nbytes
  tbufs : ∀ tbuf ∈ block.tbufs, tbuf.Fits block.mblk.nbytes

theorem SynchronizedSourceBuffer.load_sizes
    (sync : SynchronizedSourceBuffer) (mblk : MemoryBlock) (first last : ℤ) :
    (sync.load mblk first last).hasBuf = sync.hasBuf ∧
      (sync.load mblk first last).ndata = sync.ndata ∧
      (sync.load mblk first last).nbytes = sync.nbytes ∧
      (sync.load mblk first last).bidirectional = sync.bidirectional := by
  unfold SynchronizedSourceBuffer.load
  dsimp only
  split
  · split <;> simp
  · simp

theorem SynchronizedSourceBuffer.advance_sizes
    (sync : SynchronizedSourceBuffer) (count : ℕ) :
    (sync.advance count).hasBuf = sync.hasBuf ∧
      (sync.advance count).ndata = sync.ndata ∧
      (sync.advance count).nbytes = sync.nbytes ∧
      (sync.advance count).bidirectional = sync.bidirectional := by
  unfold SynchronizedSourceBuffer.advance
  split
  · split <;> simp
  · simp

/-- A source buffer fits as long as its sizes stay the same and its changed
range stays within the block. -/
theorem SourceBuffer.Fits.of_sizes
    {sbuf sbuf' : SourceBuffer} {n : ℤ} (h : sbuf.Fits n)
    (hsizes : sbuf'.syncbuf.hasBuf = sbuf.syncbuf.hasBuf ∧
      sbuf'.syncbuf.ndata = sbuf.syncbuf.ndata ∧
      sbuf'.syncbuf.nbytes = sbuf.syncbuf.nbytes ∧
      sbuf'.syncbuf.bidirectional = sbuf.syncbuf.bidirectional)
    (hchanged : sbuf'.changed.Within n) : sbuf'.Fits n := by
  obtain ⟨hbuf, hndata, hnbytes, hbidir⟩ := hsizes
  exact
    { ndata := fun hb => by
        rw [hndata]
        exact h.ndata (hbuf ▸ hb)
      nbytes := fun hb => by
        rw [hnbytes, hndata, hbidir]
        exact h.nbytes (hbuf ▸ hb)
      changed := hchanged }

theorem SourceBuffer.Fits.invalidate
    {sbuf : SourceBuffer} {n : ℤ} (h : sbuf.Fits n) (mblk : MemoryBlock)
    {first last : ℤ} (hfirst : 0 ≤ first) (hle : first ≤ last) (hlast : last < n) :
    (sbuf.invalidate mblk first last).Fits n := by
  have hpart := sbuf.invalidatedPart_spec mblk hle
  unfold SourceBuffer.invalidate
  cases hsome : sbuf.invalidatedPart mblk first last with
  | none => exact h
  | some part =>
      obtain ⟨first', last'⟩ := part
      rw [hsome] at hpart
      obtain ⟨h1, h2, h3, -⟩ := hpart
      have hwithin : (sbuf.changed.add first' last').Within n :=
        h.changed.add (by omega) h2 (by omega)
      dsimp only
      split
      · unfold SourceBuffer.invalidateBytes
        split
        · exact h.of_sizes ⟨rfl, rfl, rfl, rfl⟩ hwithin
        · exact h.of_sizes ⟨rfl, rfl, rfl, rfl⟩ hwithin
      · exact h.of_sizes ⟨rfl, rfl, rfl, rfl⟩ hwithin

theorem SourceBuffer.Fits.synchronize
    {sbuf : SourceBuffer} {n : ℤ} (h : sbuf.Fits n) (mblk : MemoryBlock) :
    (sbuf.synchronize mblk).Fits n := by
  have hnone : InvalidatedRange.Within
      { sbuf.changed with rangeSet := false } n := fun hset => by
    simp at hset
  unfold SourceBuffer.synchronize
  dsimp only
  split
  · exact h
  split
  · exact h.of_sizes (SynchronizedSourceBuffer.load_sizes _ _ _ _) hnone
  split
  · exact h.of_sizes (SynchronizedSourceBuffer.load_sizes _ _ _ _) hnone
  split
  · exact h.of_sizes ⟨rfl, rfl, rfl, rfl⟩ hnone
  · exact h.of_sizes (SynchronizedSourceBuffer.load_sizes _ _ _ _) hnone

theorem initializeSourceBuffer_fits
    (con : ConnectionLink) (mblk : MemoryBlock) (remoteMblkId : ℤ)
    (bidirectional : Bool) :
    (initializeSourceBuffer con mblk remoteMblkId bidirectional).Fits
      mblk.nbytes where
  ndata := fun hbuf => by
    simp only [initializeSourceBuffer, Bool.not_eq_true'] at hbuf ⊢
    simp [hbuf]
  nbytes := fun hbuf => by
    simp only [initializeSourceBuffer, Bool.not_eq_true'] at hbuf ⊢
    simp [hbuf]
  changed := fun hset => by simp [initializeSourceBuffer] at hset

theorem initializeTargetBuffer_fits
    (con : ConnectionLink) {mblk : MemoryBlock} (remoteMblkId : ℤ)
    (bidirectional : Bool) (hsize : BlockSize mblk.nbytes) :
    (initializeTargetBuffer con mblk remoteMblkId bidirectional).Fits
      mblk.nbytes where
  ndata := rfl
  consistent := by
    apply initializeTargetBuffer_consistent _ _ _ _ hsize.1
    have hbound := hsize.2
    have hnonneg := hsize.1
    unfold transferBytes at hbound ⊢
    rw [if_pos rfl] at hbound
    split
    · exact hbound
    · omega

theorem SourceBuffer.Fits.echoBytes
    {n : ℤ} (changed : ℤ → Bool) (mblk : MemoryBlock) (count : ℕ)
    {first : ℤ} (hfirst : 0 ≤ first) (hlast : first + count ≤ n)
    {sbuf : SourceBuffer} (h : sbuf.Fits n) :
    (Iocom.echoBytes changed mblk count first sbuf).Fits n := by
  induction count generalizing first sbuf with
  | zero => exact h
  | succ count ih =>
      unfold Iocom.echoBytes
      push_cast at hlast
      apply ih (by omega) (by omega)
      split
      · exact h.invalidate mblk hfirst le_rfl (by omega)
      · exact h

theorem SourceBuffer.Fits.echo
    {n : ℤ} {sbuf : SourceBuffer} (h : sbuf.Fits n) (mblk : MemoryBlock)
    {tbuf : TargetBuffer} (htbuf : tbuf.Fits n)
    (hused : tbuf.syncbuf.bufUsed = true) : (sbuf.echo mblk tbuf).Fits n := by
  obtain ⟨hlo, hle, hhi⟩ := htbuf.consistent.bufRange hused
  rw [htbuf.ndata] at hhi
  unfold SourceBuffer.echo
  dsimp only
  split
  · exact h
  split
  · exact h.echoBytes _ mblk _ hlo (by omega)
  · exact h.invalidate mblk hlo hle hhi

/-! ## Operations of a block -/

theorem LinkedBlock.Fits.write
    {block : LinkedBlock} (h : block.Fits) {addr : ℤ} {data : List UInt8}
    (haddr : 0 ≤ addr) (hdata : data ≠ []) : (block.write addr data).Fits := by
  have hlen : 0 < data.length := List.length_pos_iff.mpr hdata
  unfold LinkedBlock.write Iocom.write
  split
  · exact h
  · rename_i hroom
    have hcount : 0 < block.mblk.writeCount addr data.length ∧
        addr + block.mblk.writeCount addr data.length ≤ block.mblk.nbytes := by
      unfold MemoryBlock.writeCount
      omega
    exact
      { size := h.size
        sbufs := fun sbuf hsbuf => by
          obtain ⟨old, hold, rfl⟩ := List.mem_map.mp hsbuf
          exact (h.sbufs old hold).invalidate _ haddr (by omega) (by omega)
        tbufs := h.tbufs }

theorem LinkedBlock.Fits.send {block : LinkedBlock} (h : block.Fits) :
    block.send.Fits where
  size := h.size
  sbufs := fun sbuf hsbuf => by
    obtain ⟨old, hold, rfl⟩ := List.mem_map.mp hsbuf
    exact (h.sbufs old hold).synchronize block.mblk
  tbufs := h.tbufs

theorem LinkedBlock.Fits.makeDataFrame
    {block : LinkedBlock} (h : block.Fits) (pos : ℕ) (con : Connection) :
    (block.makeDataFrame pos con).Fits where
  size := h.size
  sbufs := by
    apply forall_mem_modify h.sbufs
    intro sbuf hsbuf
    have hfits := h.sbufs sbuf (List.mem_of_getElem? hsbuf)
    cases hmake : Iocom.makeDataFrame con block.mblk sbuf with
    | none => exact hfits
    | some made =>
        obtain ⟨con', sbuf', frame⟩ := made
        obtain ⟨count, rfl⟩ := makeDataFrame_sbuf hmake
        exact hfits.of_sizes (SynchronizedSourceBuffer.advance_sizes _ _)
          hfits.changed
  tbufs := h.tbufs

theorem receiveTargetBuffer_fits
    {mblk : MemoryBlock} {sbufs : List SourceBuffer} {tbuf : TargetBuffer}
    (hsbufs : ∀ sbuf ∈ sbufs, sbuf.Fits mblk.nbytes)
    (htbuf : tbuf.Fits mblk.nbytes) :
    (receiveTargetBuffer mblk sbufs tbuf).1.nbytes = mblk.nbytes ∧
      (receiveTargetBuffer mblk sbufs tbuf).1.flags = mblk.flags ∧
      (∀ sbuf ∈ (receiveTargetBuffer mblk sbufs tbuf).2.1,
        sbuf.Fits mblk.nbytes) ∧
      (receiveTargetBuffer mblk sbufs tbuf).2.2.Fits mblk.nbytes := by
  unfold receiveTargetBuffer
  split
  · rename_i hused
    obtain ⟨hlo, hle, hhi⟩ := htbuf.consistent.bufRange hused
    rw [htbuf.ndata] at hhi
    refine ⟨rfl, rfl, ?_, htbuf.ndata, ?_⟩
    · intro sbuf hsbuf
      obtain ⟨old, hold, rfl⟩ := List.mem_map.mp hsbuf
      split
      · exact (hsbufs old hold).echo _ htbuf hused
      · exact (hsbufs old hold).invalidate _ hlo hle hhi
    · have hc := htbuf.consistent
      exact ⟨hc.ndata, hc.nbytes, hc.bound, hc.newRange, fun h => by
        simp [SynchronizedTargetBuffer.finishReceive] at h⟩
  · exact ⟨rfl, rfl, hsbufs, htbuf⟩

theorem receive_fits
    {mblk : MemoryBlock} {sbufs : List SourceBuffer} {tbufs : List TargetBuffer}
    (hsbufs : ∀ sbuf ∈ sbufs, sbuf.Fits mblk.nbytes)
    (htbufs : ∀ tbuf ∈ tbufs, tbuf.Fits mblk.nbytes) :
    (Iocom.receive mblk sbufs tbufs).1.nbytes = mblk.nbytes ∧
      (∀ sbuf ∈ (Iocom.receive mblk sbufs tbufs).2.1, sbuf.Fits mblk.nbytes) ∧
      ∀ tbuf ∈ (Iocom.receive mblk sbufs tbufs).2.2, tbuf.Fits mblk.nbytes := by
  induction tbufs generalizing mblk sbufs with
  | nil => exact ⟨rfl, hsbufs, htbufs⟩
  | cons tbuf tbufs ih =>
      unfold Iocom.receive
      split
      · exact ⟨rfl, hsbufs, htbufs⟩
      · obtain ⟨hn, -, hs, ht⟩ :=
          receiveTargetBuffer_fits hsbufs (htbufs tbuf List.mem_cons_self)
        rw [← hn] at hs
        have htail : ∀ t ∈ tbufs,
            t.Fits (receiveTargetBuffer mblk sbufs tbuf).1.nbytes := by
          intro t hmem
          rw [hn]
          exact htbufs t (List.mem_cons_of_mem _ hmem)
        have hrest := ih hs htail
        rw [hn] at hrest
        refine ⟨hrest.1, hrest.2.1, ?_⟩
        intro t hmem
        rcases List.mem_cons.mp hmem with rfl | hmem
        · exact ht
        · exact hrest.2.2 t hmem

theorem LinkedBlock.Fits.receive {block : LinkedBlock} (h : block.Fits) :
    block.receive.Fits := by
  obtain ⟨hn, hs, ht⟩ := receive_fits h.sbufs h.tbufs
  exact
    { size := by
        unfold LinkedBlock.receive
        rw [hn]
        exact h.size
      sbufs := by
        unfold LinkedBlock.receive
        rw [hn]
        exact hs
      tbufs := by
        unfold LinkedBlock.receive
        rw [hn]
        exact ht }

theorem LinkedBlock.Fits.storeFrame
    {block : LinkedBlock} (h : block.Fits) (pos : ℕ) {frame : Frame}
    (hframe : ∀ tbuf, block.tbufs[pos]? = some tbuf →
      tbuf.FrameFits (osInt frame.addr) frame.payload frame.flags) :
    LinkedBlock.Fits
      { block with
        tbufs := block.tbufs.modify pos fun tbuf =>
          (tbuf.storeFrame frame).2 } where
  size := h.size
  sbufs := h.sbufs
  tbufs := by
    apply forall_mem_modify h.tbufs
    intro tbuf htbuf
    have hfits := h.tbufs tbuf (List.mem_of_getElem? htbuf)
    exact
      { ndata := by
          rw [← hfits.ndata]
          exact tbuf.storeDataFrame_ndata _ _ _
        consistent :=
          hfits.consistent.store (osInt_bounds _) (hframe tbuf htbuf) }

theorem LinkedBlock.Fits.mbinfoNewSbuf
    {block : LinkedBlock} (h : block.Fits) (con : ConnectionLink)
    (info : MemoryBlockInfo) (bidirectional : Bool) :
    (block.mbinfoNewSbuf con info bidirectional).Fits := by
  unfold LinkedBlock.mbinfoNewSbuf
  split
  · exact h
  · exact
      { size := h.size
        sbufs := fun sbuf hsbuf => by
          rcases List.mem_append.mp hsbuf with hold | hnew
          · exact h.sbufs sbuf hold
          · obtain rfl := List.mem_singleton.mp hnew
            exact (initializeSourceBuffer_fits _ _ _ _).synchronize _
        tbufs := h.tbufs }

theorem LinkedBlock.Fits.mbinfoNewTbuf
    {block : LinkedBlock} (h : block.Fits) (con : ConnectionLink)
    (info : MemoryBlockInfo) (bidirectional : Bool) :
    (block.mbinfoNewTbuf con info bidirectional).Fits := by
  unfold LinkedBlock.mbinfoNewTbuf
  split
  · exact h
  · exact
      { size := h.size
        sbufs := h.sbufs
        tbufs := fun tbuf htbuf => by
          rcases List.mem_append.mp htbuf with hold | hnew
          · apply h.tbufs tbuf
            split at hold
            · exact hold
            · exact List.mem_of_mem_filter hold
          · obtain rfl := List.mem_singleton.mp hnew
            exact initializeTargetBuffer_fits _ _ _ h.size }

theorem LinkedBlock.Fits.link
    {block : LinkedBlock} (h : block.Fits) (con : ConnectionLink)
    (bidirectionalMblks : Bool) (info : MemoryBlockInfo) :
    (block.link con bidirectionalMblks info).Fits :=
  LinkedBlock.link_rule con bidirectionalMblks info h
    (fun _ flag hb => hb.mbinfoNewSbuf con info flag)
    (fun _ flag hb => hb.mbinfoNewTbuf con info flag)

/-! ## Growing a block -/

/-- No buffer of the block depends on the size of the block. -/
def LinkedBlock.Unlinked (block : LinkedBlock) : Prop :=
  (∀ sbuf ∈ block.sbufs, sbuf.syncbuf.hasBuf = false) ∧ block.tbufs = []

theorem LinkedBlock.Fits.grow
    {block : LinkedBlock} (h : block.Fits) (hunlinked : block.Unlinked)
    {nbytes : ℤ} (hgrows : block.mblk.nbytes < nbytes) (hsize : BlockSize nbytes)
    (fresh : Mem) :
    LinkedBlock.Fits { block with mblk := block.mblk.grow nbytes fresh } where
  size := hsize
  sbufs := fun sbuf hsbuf =>
    { ndata := fun hbuf => by
        rw [hunlinked.1 sbuf hsbuf] at hbuf
        contradiction
      nbytes := (h.sbufs sbuf hsbuf).nbytes
      changed := fun hset => by
        have := (h.sbufs sbuf hsbuf).changed hset
        simp only [MemoryBlock.grow]
        omega }
  tbufs := fun tbuf htbuf => by
    dsimp only at htbuf
    rw [hunlinked.2] at htbuf
    contradiction

/-- `ioc_resize_mblk`, called without `IOC_DISCONNECT_MBLK_ON_RESIZE`, gives
the block another size. -/
def LinkedBlock.ResizeGrows
    (block : LinkedBlock) (nbytes : ℤ) (newbuf : Option Mem) : Prop :=
  block.mblk.nbytes < nbytes ∧ block.mblk.flags.allowResize = true ∧
    block.mblk.bufAllocated = true ∧ newbuf.isSome = true

def LinkedBlock.InfoGrows
    (block : LinkedBlock) (maxAddr : ℤ) (newbuf : Option Mem) : Prop :=
  block.mblk.nbytes < max maxAddr minMblkSz ∧ block.mblk.bufAllocated = true ∧
    newbuf.isSome = true

theorem LinkedBlock.Fits.resizeMblk
    {block : LinkedBlock} (h : block.Fits) {nbytes : ℤ} {newbuf : Option Mem}
    (hgrows : block.ResizeGrows nbytes newbuf →
      block.Unlinked ∧ BlockSize nbytes) :
    (block.resizeMblk nbytes false newbuf).2.Fits := by
  unfold LinkedBlock.resizeMblk
  split
  · exact h
  rename_i hlt
  split
  · exact h
  rename_i hallow
  split
  · exact h
  rename_i halloc
  cases newbuf with
  | none => exact h
  | some fresh =>
      have hcond := hgrows
        ⟨by omega, by simpa using hallow, by simpa using halloc, rfl⟩
      exact h.grow hcond.1 (by omega) hcond.2 _

theorem LinkedBlock.Fits.resizeByInfo
    {block : LinkedBlock} (h : block.Fits) {maxAddr : ℤ} {newbuf : Option Mem}
    (hgrows : block.InfoGrows maxAddr newbuf →
      block.Unlinked ∧ BlockSize (max maxAddr minMblkSz)) :
    (block.resizeByInfo maxAddr newbuf).Fits := by
  unfold LinkedBlock.resizeByInfo
  dsimp only
  split
  · rename_i hlt
    split
    · rename_i halloc
      cases newbuf with
      | none => exact h
      | some fresh =>
          have hcond := hgrows ⟨hlt, halloc, rfl⟩
          exact h.grow hcond.1 hlt hcond.2 fresh
    · exact h
  · exact h

/-- With the flag the buffers are released before the block grows. -/
theorem LinkedBlock.Fits.resizeMblk_disconnect
    {block : LinkedBlock} (h : block.Fits) {nbytes : ℤ} (newbuf : Option Mem)
    (hsize : BlockSize nbytes) :
    (block.resizeMblk nbytes true newbuf).2.Fits := by
  have hreleased : LinkedBlock.Fits { block with sbufs := [], tbufs := [] } :=
    ⟨h.size, fun _ hmem => by contradiction, fun _ hmem => by contradiction⟩
  unfold LinkedBlock.resizeMblk
  split
  · exact h
  split
  · exact h
  split
  · exact h
  cases newbuf with
  | none => exact hreleased
  | some fresh =>
      exact ⟨hsize, fun _ hmem => by contradiction, fun _ hmem => by contradiction⟩

/-- The data sizes which the buffers were allocated for are the size of the
block. -/
def LinkedBlock.SizesAgree (block : LinkedBlock) : Prop :=
  (∀ sbuf ∈ block.sbufs, sbuf.syncbuf.hasBuf = true →
    sbuf.syncbuf.ndata = block.mblk.nbytes) ∧
    ∀ tbuf ∈ block.tbufs, tbuf.syncbuf.ndata = block.mblk.nbytes

/-- Growing keeps the sizes in agreement only for an unlinked block. -/
theorem LinkedBlock.Fits.sizesAgree_grow_iff
    {block : LinkedBlock} (h : block.Fits) {nbytes : ℤ}
    (hgrows : block.mblk.nbytes < nbytes) (fresh : Mem) :
    LinkedBlock.SizesAgree { block with mblk := block.mblk.grow nbytes fresh } ↔
      block.Unlinked := by
  constructor
  · rintro ⟨hs, ht⟩
    constructor
    · intro sbuf hsbuf
      by_contra hbuf
      have hold := (h.sbufs sbuf hsbuf).ndata (by simpa using hbuf)
      have hnew : sbuf.syncbuf.ndata = nbytes := hs sbuf hsbuf (by simpa using hbuf)
      omega
    · by_contra hne
      obtain ⟨tbuf, htbuf⟩ := List.exists_mem_of_ne_nil _ hne
      have hold := (h.tbufs tbuf htbuf).ndata
      have hnew : tbuf.syncbuf.ndata = nbytes := ht tbuf htbuf
      omega
  · rintro ⟨hs, ht⟩
    constructor
    · intro sbuf hsbuf hbuf
      rw [hs sbuf hsbuf] at hbuf
      contradiction
    · intro tbuf htbuf
      dsimp only at htbuf
      rw [ht] at htbuf
      contradiction

/-! ## Runs -/

/-- A step which grows a block only while no buffer depends on its size, and
whose writes and received frames address what they may. -/
def RootAction.Fits (root : Root) : RootAction → Prop
  | .initializeMemoryBlock prm _ fresh =>
      BlockSize (prm.block 0 fresh).mblk.nbytes
  | .mbinfoReceived _ permissions info _ _ newbuf =>
      permissions.authorized = true →
        match root.mblks[root.findBlock info.name]? with
        | some block =>
            block.ResizeGrows info.nbytes newbuf →
              block.Unlinked ∧ BlockSize info.nbytes
        | none =>
            permissions.dynamicMblks = true →
              BlockSize (max info.nbytes minMblkSz)
  | .resizeMemoryBlockByInfo deviceName deviceNr mblkName maxAddr newbuf =>
      ∀ block,
        root.mblks[root.mblks.findIdx fun b =>
          b.isDescribed deviceName deviceNr mblkName]? = some block →
        block.InfoGrows maxAddr newbuf →
          block.Unlinked ∧ BlockSize (max maxAddr minMblkSz)
  | .write _ addr data => 0 ≤ addr ∧ data ≠ []
  | .dataFrameReceived con authorized frame =>
      authorized = true →
        ∀ block tbuf,
          root.mblks[root.addressed con frame.mblkId]? = some block →
          block.tbufs[block.findTbuf con]? = some tbuf →
            tbuf.FrameFits (osInt frame.addr) frame.payload frame.flags
  | _ => True

theorem Root.Fits.initializeMemoryBlock
    {root : Root} (h : ∀ block ∈ root.mblks, block.Fits)
    {prm : MemoryBlockParams} {draws : List ℕ} {fresh : Mem}
    (hsize : BlockSize (prm.block 0 fresh).mblk.nbytes) :
    ∀ block ∈ (root.initializeMemoryBlock prm draws fresh).mblks, block.Fits := by
  intro block hblock
  rcases List.mem_append.mp hblock with hold | hnew
  · exact h block hold
  · obtain rfl := List.mem_singleton.mp hnew
    exact ⟨hsize, fun _ hmem => by contradiction, fun _ hmem => by contradiction⟩

theorem Root.Fits.mbinfoReceived
    {root : Root} (h : ∀ block ∈ root.mblks, block.Fits)
    {con : ConnectionLink} {permissions : InfoPermissions}
    {info : MemoryBlockInfo} {draws : List ℕ} {fresh : Mem} {newbuf : Option Mem}
    (hfits : RootAction.Fits root
      (.mbinfoReceived con permissions info draws fresh newbuf)) :
    ∀ block ∈ (root.mbinfoReceived con permissions info draws fresh newbuf).mblks,
      block.Fits := by
  unfold Root.mbinfoReceived
  cases hauth : permissions.authorized with
  | false => exact h
  | true =>
      have hcond := hfits hauth
      simp only [Bool.not_true, Bool.false_eq_true, if_false]
      by_cases hfound : root.findBlock info.name < root.mblks.length
      · rw [if_pos hfound]
        apply forall_mem_modify h
        intro block hblock
        rw [hblock] at hcond
        exact ((h block (List.mem_of_getElem? hblock)).resizeMblk hcond).link _ _ _
      · rw [if_neg hfound]
        have hnone : root.mblks[root.findBlock info.name]? = none :=
          List.getElem?_eq_none (by omega)
        rw [hnone] at hcond
        cases hdyn : permissions.dynamicMblks with
        | false =>
            simp only [Bool.false_eq_true, if_false]
            apply forall_mem_modify h
            intro block hblock
            rw [hnone] at hblock
            contradiction
        | true =>
            simp only [if_true]
            have hsize : BlockSize (info.params.block 0 fresh).mblk.nbytes :=
              hcond hdyn
            have hcreated : ∀ block ∈
                (root.initializeMemoryBlock info.params draws fresh).mblks,
                block.Fits := Root.Fits.initializeMemoryBlock h hsize
            apply forall_mem_modify hcreated
            intro block hblock
            have hfitting := hcreated block (List.mem_of_getElem? hblock)
            have hlength : root.findBlock info.name = root.mblks.length := by
              have : root.findBlock info.name ≤ root.mblks.length :=
                List.findIdx_le_length
              omega
            -- The created block is at least as large as the info says.
            have hlarge : info.nbytes ≤ block.mblk.nbytes := by
              rw [hlength] at hblock
              simp only [Root.initializeMemoryBlock, List.getElem?_append_right
                (Nat.le_refl _), Nat.sub_self, List.getElem?_cons_zero,
                Option.some.injEq] at hblock
              subst block
              simp only [MemoryBlockParams.block, MemoryBlockInfo.params,
                Option.isNone_none, if_true]
              omega
            refine (hfitting.resizeMblk fun hgrows => ?_).link _ _ _
            have := hgrows.1
            omega

theorem RootAction.Fits.step
    {root : Root} {action : RootAction} (hfits : action.Fits root)
    (h : ∀ block ∈ root.mblks, block.Fits) :
    ∀ block ∈ (root.step action).mblks, block.Fits := by
  cases action with
  | initializeMemoryBlock prm draws fresh =>
      exact Root.Fits.initializeMemoryBlock h hfits
  | releaseMemoryBlock pos =>
      intro block hblock
      exact h block (List.mem_of_mem_eraseIdx hblock)
  | mbinfoReceived con permissions info draws fresh newbuf =>
      exact Root.Fits.mbinfoReceived h hfits
  | resizeMemoryBlockByInfo deviceName deviceNr mblkName maxAddr newbuf =>
      apply forall_mem_modify h
      intro block hblock
      exact (h block (List.mem_of_getElem? hblock)).resizeByInfo
        (hfits block hblock)
  | write pos addr data =>
      exact Root.step_modify h fun block hblock => hblock.write hfits.1 hfits.2
  | send pos => exact Root.step_modify h fun block hblock => hblock.send
  | makeDataFrame pos sbuf con =>
      exact Root.step_modify h fun block hblock => hblock.makeDataFrame sbuf con
  | dataFrameReceived con authorized frame =>
      simp only [Root.step, Root.processReceivedDataFrame]
      cases hauth : authorized with
      | false => exact h
      | true =>
          apply forall_mem_modify h
          intro block hblock
          exact (h block (List.mem_of_getElem? hblock)).storeFrame _
            fun tbuf htbuf => hfits hauth block tbuf hblock htbuf
  | receive pos => exact Root.step_modify h fun block hblock => hblock.receive
  | connectionClosed con =>
      intro block hblock
      obtain ⟨old, hold, rfl⟩ := List.mem_map.mp hblock
      have hfitting := h old (List.mem_of_mem_filter hold)
      exact
        { size := hfitting.size
          sbufs := fun sbuf hmem =>
            hfitting.sbufs sbuf (List.mem_of_mem_filter hmem)
          tbufs := fun tbuf hmem =>
            hfitting.tbufs tbuf (List.mem_of_mem_filter hmem) }

/-- What is promised about a block and its buffers: the sizes agree, and every
copy between them stays inside both. -/
structure LinkedBlock.BuffersFit (block : LinkedBlock) : Prop where
  sizes : block.SizesAgree
  snapshots :
    ∀ sbuf ∈ block.sbufs, ∀ w ∈ sbuf.synchronizeCopies block.mblk,
      0 ≤ w.1 ∧ w.2 < block.mblk.nbytes ∧ w.2 < sbuf.syncbuf.ndata
  snapshotBits :
    ∀ sbuf ∈ block.sbufs, ∀ w ∈ sbuf.synchronizeCopies block.mblk,
      ∀ b ∈ sbuf.syncbuf.bitsOf w,
        sbuf.syncbuf.ndata ≤ b.1 ∧ b.2 < sbuf.syncbuf.nbytes
  invalidations :
    ∀ sbuf ∈ block.sbufs, sbuf.syncbuf.hasBuf = true →
      ∀ w : ℤ × ℤ, 0 ≤ w.1 → w.2 < block.mblk.nbytes →
        w.2 < sbuf.syncbuf.ndata ∧
          ∀ b ∈ sbuf.syncbuf.bitsOf w,
            sbuf.syncbuf.ndata ≤ b.1 ∧ b.2 < sbuf.syncbuf.nbytes
  stores :
    ∀ tbuf ∈ block.tbufs, ∀ frame : Frame,
      tbuf.FrameFits (osInt frame.addr) frame.payload frame.flags →
        tbuf.StoreSafe (osInt frame.addr) frame.payload frame.flags
  receives :
    ∀ tbuf ∈ block.tbufs, ∀ w ∈ tbuf.receiveCopies,
      0 ≤ w.1 ∧ w.2 < block.mblk.nbytes ∧ w.2 < tbuf.syncbuf.ndata

def Root.BuffersFit (root : Root) : Prop :=
  ∀ block ∈ root.mblks, block.BuffersFit

theorem SourceBuffer.Fits.bits
    {sbuf : SourceBuffer} {n : ℤ} (h : sbuf.Fits n)
    (hbuf : sbuf.syncbuf.hasBuf = true) {w b : ℤ × ℤ} (hfirst : 0 ≤ w.1)
    (hlast : w.2 < n) (hb : b ∈ sbuf.syncbuf.bitsOf w) :
    sbuf.syncbuf.ndata ≤ b.1 ∧ b.2 < sbuf.syncbuf.nbytes := by
  have hndata := h.ndata hbuf
  have hnbytes := h.nbytes hbuf
  unfold SynchronizedSourceBuffer.bitsOf at hb
  split at hb
  · rename_i hbidir
    obtain rfl := List.mem_singleton.mp hb
    rw [hbidir] at hnbytes
    simp only [transferBytes, if_true] at hnbytes
    dsimp only
    omega
  · contradiction

theorem SourceBuffer.Fits.copies
    {sbuf : SourceBuffer} {mblk : MemoryBlock} (h : sbuf.Fits mblk.nbytes)
    {w : ℤ × ℤ} (hw : w ∈ sbuf.synchronizeCopies mblk) :
    sbuf.syncbuf.hasBuf = true ∧ 0 ≤ w.1 ∧ w.2 < mblk.nbytes ∧
      w.2 < sbuf.syncbuf.ndata := by
  unfold SourceBuffer.synchronizeCopies at hw
  split at hw
  · contradiction
  rename_i hsome
  have hbuf : sbuf.syncbuf.hasBuf = true := by
    cases hb : sbuf.syncbuf.hasBuf with
    | true => rfl
    | false => simp [hb] at hsome
  have hndata := h.ndata hbuf
  split at hw
  · obtain rfl := List.mem_singleton.mp hw
    dsimp only
    exact ⟨hbuf, le_rfl, by omega, by omega⟩
  · rename_i hkey
    obtain rfl := List.mem_singleton.mp hw
    have hset : sbuf.changed.rangeSet = true := by
      cases hr : sbuf.changed.rangeSet with
      | true => rfl
      | false => simp [hr, hkey] at hsome
    have hwithin := h.changed hset
    dsimp only
    exact ⟨hbuf, by omega, by omega, by omega⟩

theorem LinkedBlock.Fits.buffersFit {block : LinkedBlock} (h : block.Fits) :
    block.BuffersFit where
  sizes :=
    ⟨fun sbuf hsbuf => (h.sbufs sbuf hsbuf).ndata,
      fun tbuf htbuf => (h.tbufs tbuf htbuf).ndata⟩
  snapshots := fun sbuf hsbuf w hw => ((h.sbufs sbuf hsbuf).copies hw).2
  snapshotBits := fun sbuf hsbuf w hw b hb => by
    obtain ⟨hbuf, hlo, hhi, -⟩ := (h.sbufs sbuf hsbuf).copies hw
    exact (h.sbufs sbuf hsbuf).bits hbuf hlo hhi hb
  invalidations := fun sbuf hsbuf hbuf w hlo hhi => by
    have hndata := (h.sbufs sbuf hsbuf).ndata hbuf
    exact ⟨by omega, fun b hb => (h.sbufs sbuf hsbuf).bits hbuf hlo hhi hb⟩
  stores := fun tbuf htbuf frame hframe =>
    (tbuf.storeDataFrame_safe_iff _ _ _ (h.tbufs tbuf htbuf).consistent
      (osInt_bounds _)).mpr hframe
  receives := fun tbuf htbuf w hw => by
    have hndata := (h.tbufs tbuf htbuf).ndata
    unfold TargetBuffer.receiveCopies at hw
    split at hw
    · rename_i hused
      obtain rfl := List.mem_singleton.mp hw
      have hrange := (h.tbufs tbuf htbuf).consistent.bufRange hused
      dsimp only
      omega
    · contradiction

/-- In every run whose steps fit, the buffers fit their blocks in every state
reached. -/
theorem transfer_buffers_fit {root : Root}
    (hrun : Root.ReachedBy (fun s action => action.Fits s) root) :
    root.BuffersFit := by
  have hinv : ∀ block ∈ root.mblks, block.Fits := by
    apply TransitionSystem.invariant_of_run
      (fun s : Root => ∀ block ∈ s.mblks, block.Fits) _ _ hrun
    · rintro s t hs ⟨action, hfits, rfl⟩
      exact hfits.step hs
    · intro block hblock
      contradiction
  intro block hblock
  exact (hinv block hblock).buffersFit

def exchangeBlockParams : MemoryBlockParams where
  name := ⟨"exp", "gina", 1, "iocafenet"⟩
  dynamic := false
  flags := ⟨false, true, false, true, false⟩
  nbytes := 24
  buf := none

def exchangeBlockInfo (mblkId : ℕ) (nbytes : ℤ) : MemoryBlockInfo where
  name := exchangeBlockParams.name
  mblkId := mblkId
  nbytes := nbytes
  down := false
  up := true
  bidirectional := false

def uplinkPermissions : InfoPermissions := ⟨true, false, false⟩

def grownThenLinked : Root :=
  ((initializeRoot.step
    (.initializeMemoryBlock exchangeBlockParams [] fun _ => 0)).step
    (.mbinfoReceived ⟨0, true⟩ uplinkPermissions (exchangeBlockInfo 8 48) []
      (fun _ => 0) (some fun _ => 0)))

/-- The same block when an info over a second connection makes it grow once
more. -/
def linkedThenGrown : Root :=
  grownThenLinked.step
    (.mbinfoReceived ⟨1, true⟩ uplinkPermissions (exchangeBlockInfo 9 96) []
      (fun _ => 0) (some fun _ => 0))

theorem transfer_buffers_fit_grownThenLinked : grownThenLinked.BuffersFit := by
  apply transfer_buffers_fit
  refine .tail (.tail .refl ⟨_, ?_, rfl⟩) ⟨_, ?_, rfl⟩
  · exact ⟨by decide, by decide⟩
  · intro _
    exact fun _ => ⟨⟨fun _ h => by contradiction, rfl⟩, by decide, by decide⟩

/-- Not in every run: the source buffer of the first connection keeps its size
of 48 bytes while the block has 96. -/
theorem transfer_buffers_do_not_always_fit :
    ¬∀ root : Root, Root.ReachedBy (fun _ _ => True) root → root.BuffersFit := by
  intro hall
  have hreached : Root.ReachedBy (fun _ _ => True) linkedThenGrown :=
    .tail (.tail (.tail .refl ⟨_, trivial, rfl⟩) ⟨_, trivial, rfl⟩)
      ⟨_, trivial, rfl⟩
  have hunequal : (linkedThenGrown.mblks.all fun block =>
      block.sbufs.all fun sbuf =>
        !sbuf.syncbuf.hasBuf ||
          decide (sbuf.syncbuf.ndata = block.mblk.nbytes)) = false := by
    decide
  have hequal : (linkedThenGrown.mblks.all fun block =>
      block.sbufs.all fun sbuf =>
        !sbuf.syncbuf.hasBuf ||
          decide (sbuf.syncbuf.ndata = block.mblk.nbytes)) = true := by
    apply List.all_eq_true.mpr
    intro block hblock
    apply List.all_eq_true.mpr
    intro sbuf hsbuf
    have hsize := (hall linkedThenGrown hreached block hblock).sizes.1 sbuf hsbuf
    cases hbuf : sbuf.syncbuf.hasBuf with
    | false => simp
    | true => simp [hsize hbuf]
  rw [hequal] at hunequal
  contradiction

end Iocom
