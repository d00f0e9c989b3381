import Iocom.SnapshotTransfer
import Iocom.ChangeMarking
import Iocom.Lib.EchoExchange
import Iocom.Lib.TransitionSystem

/-!
# Convergence of a bidirectional memory block

A controller and a device hold copies of one block and link them with
bidirectional buffers in both directions.  Every byte of the link is a cell
shared by two writers, and the device is the end which echoes: its connection
has the flag `IOC_CONNECT_UP`.
-/

namespace Iocom

open EchoExchange (Side)

structure BidirectionalEnd where
  mblk : MemoryBlock
  sbuf : SourceBuffer
  tbuf : TargetBuffer

/-- Both ends, and the frames on their way by the side which sent them.  The
plain side is the controller, the echoing side is the device. -/
structure BidirectionalLink where
  ends : Side → BidirectionalEnd
  channel : Side → List Frame

inductive BidirectionalStep : BidirectionalLink → BidirectionalLink → Prop
  | write (s : BidirectionalLink) (side : Side) (addr : ℤ) (data : List UInt8)
      (mblk' : MemoryBlock) (sbuf' : SourceBuffer)
      (haddr : 0 ≤ addr) (hdata : data ≠ [])
      (hwrite : write (s.ends side).mblk [(s.ends side).sbuf] addr data =
        (mblk', [sbuf'])) :
      BidirectionalStep s
        { s with
          ends := Function.update s.ends side
            { s.ends side with mblk := mblk', sbuf := sbuf' } }
  | send (s : BidirectionalLink) (side : Side) (sbuf' : SourceBuffer)
      (hsend : send (s.ends side).mblk [(s.ends side).sbuf] = [sbuf']) :
      BidirectionalStep s
        { s with
          ends := Function.update s.ends side { s.ends side with sbuf := sbuf' } }
  | cancelFrame (s : BidirectionalLink) (side : Side) (con : Connection)
      (hused : (s.ends side).sbuf.syncbuf.used = true)
      (hcancel : makeDataFrame con (s.ends side).mblk (s.ends side).sbuf = none) :
      BidirectionalStep s s
  | sendFrame (s : BidirectionalLink) (side : Side) (con con' : Connection)
      (sbuf' : SourceBuffer) (frame : Frame)
      (hused : (s.ends side).sbuf.syncbuf.used = true)
      (hheader :
        headerSize con.isSocket (osUint (s.ends side).sbuf.remoteMblkId)
          (osUint (s.ends side).sbuf.syncbuf.startAddr) ≤ con.dstFrameSz)
      (hmake : makeDataFrame con (s.ends side).mblk (s.ends side).sbuf =
        some (con', sbuf', frame)) :
      BidirectionalStep s
        { ends := Function.update s.ends side { s.ends side with sbuf := sbuf' }
          channel := Function.update s.channel side (s.channel side ++ [frame]) }
  | deliver (s : BidirectionalLink) (side : Side) (frame : Frame)
      (rest : List Frame) (hchannel : s.channel side = frame :: rest) :
      BidirectionalStep s
        { ends := Function.update s.ends side.other
            { s.ends side.other with
              tbuf := ((s.ends side.other).tbuf.storeFrame frame).2 }
          channel := Function.update s.channel side rest }
  | receive (s : BidirectionalLink) (side : Side) (mblk' : MemoryBlock)
      (sbuf' : SourceBuffer) (tbuf' : TargetBuffer)
      (hreceive :
        receive (s.ends side).mblk [(s.ends side).sbuf] [(s.ends side).tbuf] =
          (mblk', [sbuf'], [tbuf'])) :
      BidirectionalStep s
        { s with
          ends := Function.update s.ends side ⟨mblk', sbuf', tbuf'⟩ }

/-- The ranges and change bits of one end are consistent, for a block of `n`
bytes. -/
structure BidirectionalEnd.Invariant
    (n : ℤ) (side : Side) (e : BidirectionalEnd) : Prop where
  size : e.mblk.nbytes = n
  sbufSize : e.sbuf.syncbuf.ndata = n
  tbufSize : e.tbuf.syncbuf.ndata = n
  static : e.mblk.flags.static = false
  hasBuf : e.sbuf.syncbuf.hasBuf = true
  sbufBidirectional : e.sbuf.syncbuf.bidirectional = true
  tbufBidirectional : e.tbuf.syncbuf.bidirectional = true
  samePeer : e.sbuf.clink.con = e.tbuf.clink.con ∧
    e.sbuf.remoteMblkId = e.tbuf.remoteMblkId
  connectUp : e.sbuf.clink.connectUp = decide (side = .echoing)
  within : e.sbuf.changed.Within n
  marked : ∀ i, 0 ≤ i → i < n → changeBit e.sbuf.syncbuf.buf n i = true →
    e.sbuf.changed.Covers i
  wellFormed : e.tbuf.syncbuf.WellFormed
  received : ∀ i, 0 ≤ i → i < n → changeBit e.tbuf.syncbuf.buf n i = true →
    e.tbuf.syncbuf.Pending i

def BidirectionalEnd.cell (e : BidirectionalEnd) (n i : ℤ) :
    EchoExchange.CellEnd UInt8 where
  value := e.mblk.buf i
  dirty := changeBit e.sbuf.syncbuf.buf n i
  sent := e.sbuf.syncbuf.buf i
  arrived := e.tbuf.syncbuf.buf i
  mark := changeBit e.tbuf.syncbuf.buf n i

def BidirectionalLink.cell (s : BidirectionalLink)
    (jobs : Side → List Snapshot) (n i : ℤ) : EchoExchange.Cell UInt8 where
  ends := fun side => (s.ends side).cell n i
  jobs := fun side => (jobs side).map fun job => (job.data i, job.marks i)

/-- The snapshots of a side which the other end has not completed are on their
way in the channel and in the synchronization buffer. -/
structure BidirectionalLink.Flow
    (s : BidirectionalLink) (jobs : Side → List Snapshot) : Prop where
  transfer : ∀ side,
    OrderedChannel.Pending Incoming.accept Transfers
      (s.ends side.other).tbuf.syncbuf.incoming (s.channel side) (jobs side)
      (s.ends side).sbuf.syncbuf
  inside : ∀ side, ∀ job ∈ jobs side, ∀ i, job.marks i = true →
    job.first ≤ i ∧ i ≤ job.last

/-- A state of the link refines the exchange of each of its bytes. -/
structure BidirectionalLink.Invariant (n : ℤ) (s : BidirectionalLink) : Prop where
  ends : ∀ side, (s.ends side).Invariant n side
  flow : ∃ jobs, s.Flow jobs ∧
    ∀ i, 0 ≤ i → i < n → (s.cell jobs n i).Invariant

/-- A step of the link: the invariants of the ends and of the flow are kept,
and every byte makes a step of its exchange or none. -/
structure BidirectionalLink.Simulates
    (n : ℤ) (s t : BidirectionalLink) (jobs : Side → List Snapshot) : Prop where
  ends : ∀ side, (t.ends side).Invariant n side
  flow : ∃ jobs', t.Flow jobs' ∧
    ∀ i, 0 ≤ i → i < n →
      t.cell jobs' n i = s.cell jobs n i ∨
        EchoExchange.Step (s.cell jobs n i) (t.cell jobs' n i)

theorem BidirectionalLink.Invariant.of_simulates
    {n : ℤ} {s t : BidirectionalLink} {jobs : Side → List Snapshot}
    (hcells : ∀ i, 0 ≤ i → i < n → (s.cell jobs n i).Invariant)
    (h : s.Simulates n t jobs) : t.Invariant n := by
  obtain ⟨jobs', hflow, hsteps⟩ := h.flow
  refine ⟨h.ends, jobs', hflow, fun i h0 hi => ?_⟩
  rcases hsteps i h0 hi with hsame | hstep
  · rw [hsame]
    exact hcells i h0 hi
  · exact (hcells i h0 hi).step hstep

theorem BidirectionalLink.cell_update
    (s : BidirectionalLink) (side : Side) (e : BidirectionalEnd)
    (channel : Side → List Frame) (jobs : Side → List Snapshot) (n i : ℤ) :
    ({ ends := Function.update s.ends side e, channel := channel } :
        BidirectionalLink).cell jobs n i =
      { ends := Function.update (s.cell jobs n i).ends side (e.cell n i)
        jobs := (s.cell jobs n i).jobs } := by
  unfold BidirectionalLink.cell
  congr 1
  funext side'
  by_cases hside : side' = side
  · subst hside
    simp
  · simp [hside]

theorem update_ends_invariant
    {n : ℤ} {ends : Side → BidirectionalEnd} {side : Side} {e : BidirectionalEnd}
    (hends : ∀ side, (ends side).Invariant n side) (he : e.Invariant n side) :
    ∀ side', (Function.update ends side e side').Invariant n side' := by
  intro side'
  by_cases hside : side' = side
  · subst hside
    simpa using he
  · simpa [hside] using hends side'

theorem BidirectionalLink.Flow.update_end
    {s : BidirectionalLink} {jobs : Side → List Snapshot} (h : s.Flow jobs)
    {side : Side} {e : BidirectionalEnd}
    (hincoming : e.tbuf.syncbuf.incoming = (s.ends side).tbuf.syncbuf.incoming)
    (htransfers : ∀ c rest, Transfers c rest (s.ends side).sbuf.syncbuf →
      Transfers c rest e.sbuf.syncbuf) :
    ({ s with ends := Function.update s.ends side e } :
      BidirectionalLink).Flow jobs := by
  refine ⟨fun side' => ?_, h.inside⟩
  have hpending := h.transfer side'
  have hother : (Function.update s.ends side e side'.other).tbuf.syncbuf.incoming =
      (s.ends side'.other).tbuf.syncbuf.incoming := by
    by_cases hside : side'.other = side
    · rw [hside, Function.update_self, hincoming]
    · rw [Function.update_of_ne hside]
  dsimp only
  rw [hother]
  by_cases hside : side' = side
  · subst hside
    rw [Function.update_self]
    exact hpending.mono htransfers
  · rw [Function.update_of_ne hside]
    exact hpending

theorem BidirectionalEnd.Invariant.mark
    {n : ℤ} {side : Side} {e : BidirectionalEnd} (h : e.Invariant n side)
    {mblk' : MemoryBlock} {sbuf' : SourceBuffer} {p : ℤ → Bool}
    (hmblk : mblk'.nbytes = e.mblk.nbytes ∧ mblk'.flags = e.mblk.flags)
    (hmarks : e.sbuf.MarksWhere sbuf' n p) :
    ({ e with mblk := mblk', sbuf := sbuf' } :
      BidirectionalEnd).Invariant n side := by
  have hndata : e.sbuf.syncbuf.ndata = n := h.sbufSize
  exact
    { size := hmblk.1.trans h.size
      sbufSize := by dsimp only; rw [hmarks.syncbuf]; exact hndata
      tbufSize := h.tbufSize
      static := by dsimp only; rw [hmblk.2]; exact h.static
      hasBuf := by dsimp only; rw [hmarks.syncbuf]; exact h.hasBuf
      sbufBidirectional := by
        dsimp only
        rw [hmarks.syncbuf]
        exact h.sbufBidirectional
      tbufBidirectional := h.tbufBidirectional
      samePeer := by
        dsimp only
        rw [hmarks.clink, hmarks.remoteMblkId]
        exact h.samePeer
      connectUp := by dsimp only; rw [hmarks.clink]; exact h.connectUp
      within := hmarks.within h.within
      marked := fun i h0 hi hbit => by
        have hbits := hmarks.changeBits i
        rw [hndata] at hbits
        dsimp only at hbit ⊢
        rw [hbits, Bool.or_eq_true] at hbit
        rcases hbit with hold | hnew
        · exact hmarks.stillCovered i (h.marked i h0 hi hold)
        · exact hmarks.nowCovered i hnew
      wellFormed := h.wellFormed
      received := h.received }

theorem SourceBuffer.MarksWhere.transfers
    {sbuf sbuf' : SourceBuffer} {n : ℤ} {p : ℤ → Bool}
    (h : sbuf.MarksWhere sbuf' n p) (c : Incoming) (jobs : List Snapshot)
    (htransfers : Transfers c jobs sbuf.syncbuf) :
    Transfers c jobs sbuf'.syncbuf := by
  rw [h.syncbuf]
  exact htransfers.of_buf_eq fun i _ hi => h.data i hi

/-- A snapshot takes the whole block or the changed range, and so all bytes
whose change bit is set. -/
theorem BidirectionalEnd.Invariant.snapshotRange
    {n : ℤ} {side : Side} {e : BidirectionalEnd} (h : e.Invariant n side) (hpos : 0 < n)
    {first last : ℤ} {delta : Mem} (hrange : e.sbuf.SnapshotRange e.mblk first last delta) :
    (0 ≤ first ∧ first ≤ last ∧ last < n) ∧
      ∀ i, 0 ≤ i → i < n → changeBit e.sbuf.syncbuf.buf n i = true →
        first ≤ i ∧ i ≤ last := by
  cases hkey : e.sbuf.syncbuf.makeKeyframe with
  | true =>
      obtain ⟨hfirst, hlast, -⟩ := hrange.keyframe hkey
      rw [h.size] at hlast
      exact ⟨by omega, fun i h0 hi _ => by omega⟩
  | false =>
      obtain ⟨hset, -⟩ := hrange.differences hkey
      obtain ⟨hfirst, hlast⟩ := hrange.bidirectional hkey h.sbufBidirectional
      have hwithin := h.within hset
      rw [← hfirst, ← hlast] at hwithin
      refine ⟨hwithin, fun i h0 hi hbit => ?_⟩
      have hcovers := (h.marked i h0 hi hbit).2
      rw [← hfirst, ← hlast] at hcovers
      exact hcovers

theorem BidirectionalLink.Flow.size_pos
    {n : ℤ} {s : BidirectionalLink} {jobs : Side → List Snapshot} (h : s.Flow jobs)
    {side : Side} (he : (s.ends side).Invariant n side) : 0 < n := by
  obtain ⟨c, out, rest, -, -, htransfers⟩ := h.transfer side
  have hndata := htransfers.sizes.ndata
  have hpos := htransfers.sizes.pos
  rw [he.sbufSize] at hndata
  omega

/-- Completing a snapshot adds its marks to the change bits, and its data takes
the place of the data before. -/
theorem SynchronizedTargetBuffer.Completes.takes
    {marked sync' : SynchronizedTargetBuffer} (h : marked.Completes sync') {n i : ℤ}
    (hn : marked.ndata = n) (hbidir : marked.bidirectional = true) (h0 : 0 ≤ i) (hi : i < n) :
    changeBit sync'.buf n i =
        (changeBit marked.buf n i || marked.incoming.snapshot.marks i) ∧
      sync'.buf i = marked.incoming.snapshot.data i := by
  constructor
  · have hmarks : marked.incoming.snapshot.marks i =
        (decide (marked.newdataStartAddr / 8 ≤ i / 8 ∧
            i / 8 ≤ marked.newdataEndAddr / 8) &&
          changeBit marked.newdata marked.ndata i) := by
      change (marked.bidirectional &&
        marksIn marked.newdata marked.ndata marked.newdataStartAddr
          marked.newdataEndAddr i) = _
      rw [hbidir, hn, Bool.true_and, marksIn,
        show decide (0 ≤ i ∧ i < n) = true by simp [h0, hi], Bool.true_and]
    have hbit := h.changeBits hbidir i h0
    rw [← hmarks, hn] at hbit
    exact hbit
  · have hcopied : sync'.buf i = sync'.newdata i := by
      have hndata := h.sizes.2.1
      refine h.wellFormed.copied i h0 (by omega) fun hfresh => ?_
      rw [SynchronizedTargetBuffer.Fresh, h.finished] at hfresh
      exact absurd hfresh.1 (by simp)
    rw [hcopied, h.newdata]
    change _ = window marked.ndata marked.newdata i
    rw [hn, window, if_pos ⟨h0, hi⟩]

theorem MemoryBlock.copyReceived_apply
    {sync : SynchronizedTargetBuffer} (mblk : MemoryBlock) {i : ℤ}
    (hbidir : sync.bidirectional = true)
    (hreceived : changeBit sync.buf sync.ndata i = true → sync.Pending i) :
    (mblk.copyReceived sync).buf i =
      if changeBit sync.buf sync.ndata i then sync.buf i else mblk.buf i := by
  simp only [MemoryBlock.copyReceived, hbidir, if_true]
  cases hbit : changeBit sync.buf sync.ndata i with
  | false => simp
  | true => simp [(hreceived hbit).2]

/-! ## Every step is simulated -/

section Steps

variable {n : ℤ} {s : BidirectionalLink} {jobs : Side → List Snapshot}

theorem BidirectionalLink.simulates_write
    (hends : ∀ side, (s.ends side).Invariant n side) (hflow : s.Flow jobs)
    {side : Side} {addr : ℤ} {data : List UInt8} {mblk' : MemoryBlock}
    {sbuf' : SourceBuffer} (haddr : 0 ≤ addr) (hdata : data ≠ [])
    (hwrite : write (s.ends side).mblk [(s.ends side).sbuf] addr data =
      (mblk', [sbuf'])) :
    s.Simulates n
      { s with
        ends := Function.update s.ends side
          { s.ends side with mblk := mblk', sbuf := sbuf' } } jobs := by
  have he := hends side
  unfold Iocom.write at hwrite
  split at hwrite
  · simp only [Prod.mk.injEq, List.cons.injEq, and_true] at hwrite
    obtain ⟨rfl, rfl⟩ := hwrite
    have hsame : Function.update s.ends side (s.ends side) = s.ends :=
      Function.update_eq_self side s.ends
    rw [show ({ s.ends side with
        mblk := (s.ends side).mblk, sbuf := (s.ends side).sbuf } :
        BidirectionalEnd) = s.ends side from rfl, hsame]
    exact ⟨hends, jobs, hflow, fun i _ _ => .inl rfl⟩
  rename_i hroom
  simp only [List.map_cons, List.map_nil, Prod.mk.injEq, List.cons.injEq,
    and_true] at hwrite
  obtain ⟨rfl, rfl⟩ := hwrite
  have hlen : 0 < data.length := List.length_pos_iff.mpr hdata
  have hsize := he.size
  have hcount : 0 < (s.ends side).mblk.writeCount addr data.length ∧
      addr + (s.ends side).mblk.writeCount addr data.length ≤ n := by
    unfold MemoryBlock.writeCount
    omega
  have hmarks := (s.ends side).sbuf.invalidate_marksWhere
    ((s.ends side).mblk.store addr data) he.hasBuf he.sbufBidirectional haddr
    (show addr ≤ addr + (s.ends side).mblk.writeCount addr data.length - 1 by omega)
    (show addr + (s.ends side).mblk.writeCount addr data.length - 1 < n by omega)
  generalize (s.ends side).sbuf.invalidate ((s.ends side).mblk.store addr data)
    addr (addr + (s.ends side).mblk.writeCount addr data.length - 1) =
    sbuf' at *
  refine ⟨update_ends_invariant hends (he.mark ⟨rfl, rfl⟩ hmarks), jobs,
    hflow.update_end rfl hmarks.transfers, fun i h0 hi => ?_⟩
  have hbits := hmarks.changeBits i
  have hsent := hmarks.data i (by rw [he.sbufSize]; exact hi)
  rw [he.sbufSize] at hbits
  rw [BidirectionalLink.cell_update]
  by_cases hin : addr ≤ i ∧
      i ≤ addr + (s.ends side).mblk.writeCount addr data.length - 1
  · right
    have hcell : ({ s.ends side with
        mblk := (s.ends side).mblk.store addr data, sbuf := sbuf' } :
          BidirectionalEnd).cell n i =
        { (s.cell jobs n i).ends side with
          value := ((s.ends side).mblk.store addr data).buf i
          dirty := true } := by
      simp [BidirectionalEnd.cell, BidirectionalLink.cell, hbits, hin, hsent]
    rw [hcell]
    exact .write _ side _
  · left
    have hkeep := (s.ends side).mblk.store_of_outside addr data
      (show i < addr ∨
        addr + (s.ends side).mblk.writeCount addr data.length ≤ i by omega)
    have hcell : ({ s.ends side with
        mblk := (s.ends side).mblk.store addr data, sbuf := sbuf' } :
          BidirectionalEnd).cell n i = (s.cell jobs n i).ends side := by
      simp only [BidirectionalEnd.cell, BidirectionalLink.cell, hbits, hsent, hkeep,
        decide_eq_false hin, Bool.or_false]
    rw [hcell, Function.update_eq_self]

theorem BidirectionalLink.simulates_send
    (hends : ∀ side, (s.ends side).Invariant n side) (hflow : s.Flow jobs)
    {side : Side} {sbuf' : SourceBuffer}
    (hsend : send (s.ends side).mblk [(s.ends side).sbuf] = [sbuf']) :
    s.Simulates n
      { s with
        ends := Function.update s.ends side { s.ends side with sbuf := sbuf' } }
      jobs := by
  have he := hends side
  simp only [Iocom.send, List.map_cons, List.map_nil, List.cons.injEq,
    and_true] at hsend
  have hordered : (s.ends side).sbuf.changed.rangeSet = true →
      (s.ends side).sbuf.changed.startAddr ≤ (s.ends side).sbuf.changed.endAddr :=
    fun hset => (he.within hset).2.1
  rcases (s.ends side).sbuf.synchronize_cases (s.ends side).mblk he.hasBuf
    (fun _ => hordered) with ⟨hsame, -⟩ | ⟨-, -, hone, -⟩ |
    ⟨hunused, first, last, delta, hrange, hloaded⟩
  · rw [hsame] at hsend
    subst hsend
    rw [show ({ s.ends side with sbuf := (s.ends side).sbuf } :
        BidirectionalEnd) = s.ends side from rfl, Function.update_eq_self]
    exact ⟨hends, jobs, hflow, fun i _ _ => .inl rfl⟩
  · rw [he.sbufBidirectional] at hone
    contradiction
  · -- Every set change bit belongs to the range which is sent.
    obtain ⟨⟨hlo, hle, hhi⟩, hbitRange⟩ := he.snapshotRange (hflow.size_pos he) hrange
    have hn := he.sbufSize
    have hloads := SynchronizedSourceBuffer.load_spec
      { (s.ends side).sbuf.syncbuf with
        delta := delta
        makeKeyframe := false
        isKeyframe := (s.ends side).sbuf.syncbuf.makeKeyframe }
      (s.ends side).mblk he.hasBuf hlo
      (show last < (s.ends side).sbuf.syncbuf.ndata by omega)
    rw [hloaded] at hsend
    generalize SynchronizedSourceBuffer.load
      { (s.ends side).sbuf.syncbuf with
        delta := delta
        makeKeyframe := false
        isKeyframe := (s.ends side).sbuf.syncbuf.makeKeyframe }
      (s.ends side).mblk first last = sync' at *
    subst hsend
    have hcleared : ∀ i, 0 ≤ i → i < n → changeBit sync'.buf n i = false := by
      intro i h0 hi
      have hbits := hloads.clearedBits he.sbufBidirectional i h0
        (show i < (s.ends side).sbuf.syncbuf.ndata by omega)
      dsimp only at hbits
      rw [hn] at hbits
      rw [hbits]
      cases hbit : changeBit (s.ends side).sbuf.syncbuf.buf n i with
      | false => rfl
      | true =>
          have := hbitRange i h0 hi hbit
          simp only [Bool.true_and, Bool.not_eq_false', decide_eq_true_eq]
          omega
    have hmarks : ∀ i, 0 ≤ i → i < n →
        marksIn sync'.delta n first last i =
          changeBit (s.ends side).sbuf.syncbuf.buf n i := by
      intro i h0 hi
      have hbits := hloads.sentBits he.sbufBidirectional
      dsimp only at hbits
      rw [hn] at hbits
      rw [hbits, marksIn, show decide (0 ≤ i ∧ i < n) = true by simp [h0, hi],
        Bool.true_and]
      cases hbit : changeBit (s.ends side).sbuf.syncbuf.buf n i with
      | false => simp
      | true =>
          have := hbitRange i h0 hi hbit
          simp only [Bool.and_true, decide_eq_true_eq]
          omega
    have hsyncBidir : sync'.bidirectional = true :=
      hloads.bidirectional.trans he.sbufBidirectional
    refine ⟨update_ends_invariant hends ?_,
      Function.update jobs side (jobs side ++ [⟨window n sync'.buf, first, last,
        fun i => sync'.bidirectional && marksIn sync'.delta n first last i⟩]),
      ⟨fun side' => ?_, ?_⟩, fun i h0 hi => ?_⟩
    · exact
        { size := he.size
          sbufSize := hloads.ndata.trans hn
          tbufSize := he.tbufSize
          static := he.static
          hasBuf := hloads.hasBuf.trans he.hasBuf
          sbufBidirectional := hsyncBidir
          tbufBidirectional := he.tbufBidirectional
          samePeer := he.samePeer
          connectUp := he.connectUp
          within := fun h => by simp at h
          marked := fun i h0 hi hbit => by
            dsimp only at hbit
            rw [hcleared i h0 hi] at hbit
            contradiction
          wellFormed := he.wellFormed
          received := he.received }
    · have hpending := hflow.transfer side'
      have hother : (Function.update s.ends side
          { s.ends side with
            sbuf := { (s.ends side).sbuf with
              changed.rangeSet := false, syncbuf := sync' } }
            side'.other).tbuf = (s.ends side'.other).tbuf := by
        by_cases hside : side'.other = side
        · rw [hside, Function.update_self]
        · rw [Function.update_of_ne hside]
      dsimp only
      rw [hother]
      by_cases hside : side' = side
      · subst hside
        rw [Function.update_self, Function.update_self]
        refine hpending.extend _ fun t rest htransfers => ?_
        obtain ⟨rfl, hidle⟩ := htransfers.idle_of_unused hunused
        have htn : n = t.ndata := hn.symm.trans hidle.sizes.ndata
        rw [htn]
        exact .data first _ (hidle.load hrange (by omega)
          (by rw [he.size, htn]) hloads)
      · rw [Function.update_of_ne hside, Function.update_of_ne hside]
        exact hpending
    · intro side' job hjob i hmark
      by_cases hside : side' = side
      · subst hside
        rw [Function.update_self, List.mem_append, List.mem_singleton] at hjob
        rcases hjob with hjob | rfl
        · exact hflow.inside side' job hjob i hmark
        · dsimp only at hmark ⊢
          rw [hsyncBidir, Bool.true_and] at hmark
          have hi : 0 ≤ i ∧ i < n := by
            by_contra hout
            simp [marksIn, hout] at hmark
          rw [hmarks i hi.1 hi.2] at hmark
          exact hbitRange i hi.1 hi.2 hmark
      · rw [Function.update_of_ne hside] at hjob
        exact hflow.inside side' job hjob i hmark
    · right
      have hbuf := hloads.buf i (show i < (s.ends side).sbuf.syncbuf.ndata by omega)
      dsimp only at hbuf
      have hjob : (window n sync'.buf i,
          (sync'.bidirectional && marksIn sync'.delta n first last i)) =
            (sync'.buf i, ((s.cell jobs n i).ends side).dirty) := by
        rw [hsyncBidir, Bool.true_and, hmarks i h0 hi, window, if_pos ⟨h0, hi⟩]
        rfl
      have hjobs : (fun side' => (Function.update jobs side (jobs side ++
            [(⟨window n sync'.buf, first, last, fun i => sync'.bidirectional &&
              marksIn sync'.delta n first last i⟩ : Snapshot)]) side').map
                fun job => (job.data i, job.marks i)) =
          Function.update (s.cell jobs n i).jobs side
            ((s.cell jobs n i).jobs side ++
              [(sync'.buf i, ((s.cell jobs n i).ends side).dirty)]) := by
        funext side'
        by_cases hside : side' = side
        · subst hside
          simp only [Function.update_self, List.map_append, List.map_cons,
            List.map_nil, hjob]
          rfl
        · simp only [Function.update_of_ne hside]
          rfl
      rw [BidirectionalLink.cell_update]
      have hcell : ({ s.ends side with
          sbuf := { (s.ends side).sbuf with
            changed.rangeSet := false, syncbuf := sync' } } :
            BidirectionalEnd).cell n i =
          { (s.cell jobs n i).ends side with
            sent := sync'.buf i
            dirty := false } := by
        simp [BidirectionalEnd.cell, BidirectionalLink.cell, hcleared i h0 hi]
      rw [hcell]
      unfold BidirectionalLink.cell
      dsimp only
      rw [hjobs]
      refine .snapshot (s.cell jobs n i) side (sync'.buf i) ?_
      by_cases hin : first ≤ i ∧ i ≤ last
      · left
        rw [hbuf, if_pos hin]
        rfl
      · right
        rw [hbuf, if_neg hin]
        refine ⟨?_, rfl⟩
        cases hbit : changeBit (s.ends side).sbuf.syncbuf.buf n i with
        | false => exact hbit
        | true => exact absurd (hbitRange i h0 hi hbit) hin

theorem BidirectionalLink.simulates_sendFrame
    (hends : ∀ side, (s.ends side).Invariant n side) (hflow : s.Flow jobs)
    {side : Side} {con con' : Connection} {sbuf' : SourceBuffer} {frame : Frame}
    (hused : (s.ends side).sbuf.syncbuf.used = true)
    (hmake : makeDataFrame con (s.ends side).mblk (s.ends side).sbuf =
      some (con', sbuf', frame)) :
    s.Simulates n
      { ends := Function.update s.ends side { s.ends side with sbuf := sbuf' }
        channel := Function.update s.channel side (s.channel side ++ [frame]) }
      jobs := by
  have he := hends side
  obtain ⟨count, hsbuf⟩ := makeDataFrame_sbuf hmake
  obtain ⟨hbuf, hhas, hndata, hbidir, hkey⟩ :=
    (s.ends side).sbuf.syncbuf.advance_rest count
  have hsync : sbuf'.syncbuf = (s.ends side).sbuf.syncbuf.advance count := by
    rw [hsbuf]
  have hchanged : sbuf'.changed = (s.ends side).sbuf.changed := by rw [hsbuf]
  have hclink : sbuf'.clink = (s.ends side).sbuf.clink := by rw [hsbuf]
  have hremote : sbuf'.remoteMblkId = (s.ends side).sbuf.remoteMblkId := by
    rw [hsbuf]
  refine ⟨update_ends_invariant hends ?_, jobs, ⟨fun side' => ?_, hflow.inside⟩,
    fun i h0 hi => ?_⟩
  · exact
      { size := he.size
        sbufSize := by dsimp only; rw [hsync, hndata]; exact he.sbufSize
        tbufSize := he.tbufSize
        static := he.static
        hasBuf := by dsimp only; rw [hsync, hhas]; exact he.hasBuf
        sbufBidirectional := by
          dsimp only
          rw [hsync, hbidir]
          exact he.sbufBidirectional
        tbufBidirectional := he.tbufBidirectional
        samePeer := by dsimp only; rw [hclink, hremote]; exact he.samePeer
        connectUp := by dsimp only; rw [hclink]; exact he.connectUp
        within := by dsimp only; rw [hchanged]; exact he.within
        marked := by dsimp only; rw [hsync, hbuf, hchanged]; exact he.marked
        wellFormed := he.wellFormed
        received := he.received }
  · have hpending := hflow.transfer side'
    have hother : (Function.update s.ends side
        { s.ends side with sbuf := sbuf' } side'.other).tbuf =
          (s.ends side'.other).tbuf := by
      by_cases hside : side'.other = side
      · rw [hside, Function.update_self]
      · rw [Function.update_of_ne hside]
    dsimp only
    rw [hother]
    by_cases hside : side' = side
    · subst hside
      rw [Function.update_self, Function.update_self]
      exact hpending.send fun t rest htransfers => htransfers.send hused hmake
    · rw [Function.update_of_ne hside, Function.update_of_ne hside]
      exact hpending
  · left
    rw [BidirectionalLink.cell_update]
    have hcell : ({ s.ends side with sbuf := sbuf' } :
        BidirectionalEnd).cell n i = (s.cell jobs n i).ends side := by
      simp [BidirectionalEnd.cell, BidirectionalLink.cell, hsync, hbuf]
    rw [hcell, Function.update_eq_self]

theorem BidirectionalLink.simulates_deliver
    (hends : ∀ side, (s.ends side).Invariant n side) (hflow : s.Flow jobs)
    {side : Side} {frame : Frame} {rest : List Frame}
    (hchannel : s.channel side = frame :: rest) :
    s.Simulates n
      { ends := Function.update s.ends side.other
          { s.ends side.other with
            tbuf := ((s.ends side.other).tbuf.storeFrame frame).2 }
        channel := Function.update s.channel side rest } jobs := by
  have he := hends side.other
  have hpending := hflow.transfer side
  rw [hchannel] at hpending
  obtain ⟨c', out, later, haccept, hjobs, hpending'⟩ := hpending.deliver
  obtain ⟨-, hremote, hclink, hincoming, hstores⟩ :=
    TargetBuffer.storeFrame_spec he.wellFormed haccept
  obtain ⟨hndata', hbidir'⟩ := Incoming.store_sizes haccept
  generalize ((s.ends side.other).tbuf.storeFrame frame).2 = tbuf' at *
  have hndata : tbuf'.syncbuf.ndata = n := by
    have : tbuf'.syncbuf.incoming.ndata =
        (s.ends side.other).tbuf.syncbuf.incoming.ndata := by
      rw [hincoming, hndata']
    exact this.trans he.tbufSize
  have hbidir : tbuf'.syncbuf.bidirectional = true := by
    have : tbuf'.syncbuf.incoming.bidirectional =
        (s.ends side.other).tbuf.syncbuf.incoming.bidirectional := by
      rw [hincoming, hbidir']
    exact this.trans he.tbufBidirectional
  -- It remains to follow the synchronized buffer and the snapshots.
  have hrebuild : tbuf'.syncbuf.WellFormed →
      (∀ i, 0 ≤ i → i < n → changeBit tbuf'.syncbuf.buf n i = true →
        tbuf'.syncbuf.Pending i) →
      (∀ i, 0 ≤ i → i < n →
        let c := s.cell jobs n i
        let t : EchoExchange.Cell UInt8 :=
          { ends := Function.update c.ends side.other
              { c.ends side.other with
                arrived := tbuf'.syncbuf.buf i
                mark := changeBit tbuf'.syncbuf.buf n i }
            jobs := Function.update c.jobs side
              (later.map fun job => (job.data i, job.marks i)) }
        t = c ∨ EchoExchange.Step c t) →
      s.Simulates n
        { ends := Function.update s.ends side.other
            { s.ends side.other with tbuf := tbuf' }
          channel := Function.update s.channel side rest } jobs := by
    intro hwf hreceived hcells
    refine ⟨update_ends_invariant hends ?_, Function.update jobs side later,
      ⟨fun side' => ?_, ?_⟩, fun i h0 hi => ?_⟩
    · exact
        { size := he.size
          sbufSize := he.sbufSize
          tbufSize := hndata
          static := he.static
          hasBuf := he.hasBuf
          sbufBidirectional := he.sbufBidirectional
          tbufBidirectional := hbidir
          samePeer := by
            dsimp only
            rw [hclink, hremote]
            exact he.samePeer
          connectUp := he.connectUp
          within := he.within
          marked := he.marked
          wellFormed := hwf
          received := hreceived }
    · have hsbuf : (Function.update s.ends side.other
          { s.ends side.other with tbuf := tbuf' } side').sbuf =
            (s.ends side').sbuf := by
        by_cases hside : side' = side.other
        · rw [hside, Function.update_self]
        · rw [Function.update_of_ne hside]
      dsimp only
      rw [hsbuf]
      by_cases hside : side' = side
      · subst hside
        rw [Function.update_self, Function.update_self, Function.update_self]
        dsimp only
        rw [hincoming]
        exact hpending'
      · have hother : side'.other ≠ side.other := by
          intro heq
          apply hside
          rw [← Side.other_other side', heq, Side.other_other]
        rw [Function.update_of_ne hside, Function.update_of_ne hside,
          Function.update_of_ne hother]
        exact hflow.transfer side'
    · intro side' job hjob i hmark
      by_cases hside : side' = side
      · subst hside
        rw [Function.update_self] at hjob
        refine hflow.inside side' job ?_ i hmark
        rw [hjobs]
        exact List.mem_append_right _ hjob
      · rw [Function.update_of_ne hside] at hjob
        exact hflow.inside side' job hjob i hmark
    · rw [BidirectionalLink.cell_update]
      have hlater : (s.cell (Function.update jobs side later) n i).jobs =
          Function.update (s.cell jobs n i).jobs side
            (later.map fun job => (job.data i, job.marks i)) := by
        funext side'
        by_cases hside : side' = side
        · subst hside
          simp [BidirectionalLink.cell]
        · simp [BidirectionalLink.cell, hside]
      rw [hlater]
      exact hcells i h0 hi
  cases hstores with
  | fresh hbuf hpend hwf =>
      refine hrebuild hwf ?_ fun i h0 hi => .inl ?_
      · rw [hbuf]
        exact fun i h0 hi hbit => (hpend i).mpr (he.received i h0 hi hbit)
      · have hjobs' : Function.update (s.cell jobs n i).jobs side
            (later.map fun job => (job.data i, job.marks i)) =
              (s.cell jobs n i).jobs := by
          rw [Function.update_eq_self_iff, show later = jobs side by
            rw [hjobs]; rfl]
          rfl
        have hends' : Function.update (s.cell jobs n i).ends side.other
            { (s.cell jobs n i).ends side.other with
              arrived := tbuf'.syncbuf.buf i
              mark := changeBit tbuf'.syncbuf.buf n i } =
              (s.cell jobs n i).ends := by
          rw [Function.update_eq_self_iff, hbuf]
          rfl
        rw [hends', hjobs']
  | complete marked hbuf hpend hsizes hnew hcompletes hwf =>
      have hmn : marked.ndata = n := hsizes.1.trans he.tbufSize
      have hmb : marked.bidirectional = true :=
        hsizes.2.trans he.tbufBidirectional
      have hbits : ∀ i, 0 ≤ i → i < n →
          changeBit tbuf'.syncbuf.buf n i =
            (changeBit (s.ends side.other).tbuf.syncbuf.buf n i ||
              marked.incoming.snapshot.marks i) := by
        intro i h0 hi
        rw [← hbuf]
        exact (hcompletes.takes hmn hmb h0 hi).1
      have hdata : ∀ i, 0 ≤ i → i < n →
          tbuf'.syncbuf.buf i = marked.incoming.snapshot.data i :=
        fun i h0 hi => (hcompletes.takes hmn hmb h0 hi).2
      have hinside := hflow.inside side marked.incoming.snapshot (by
        rw [hjobs]
        exact List.mem_append_left _ (List.mem_singleton.mpr rfl))
      refine hrebuild hcompletes.wellFormed ?_ fun i h0 hi => .inr ?_
      · intro i h0 hi hbit
        rw [hbits i h0 hi, Bool.or_eq_true] at hbit
        rcases hbit with hold | hmark
        · exact hcompletes.stillPending i
            ((hpend i).mpr (he.received i h0 hi hold))
        · exact hcompletes.nowPending i ⟨hnew, hinside i hmark⟩ (.inl hmb)
      · have hstep := EchoExchange.Step.arrive (s.cell jobs n i) side
          (marked.incoming.snapshot.data i) (marked.incoming.snapshot.marks i)
          (later.map fun job => (job.data i, job.marks i)) (by
            change (jobs side).map _ = _
            rw [hjobs]
            rfl)
        rw [hbits i h0 hi, hdata i h0 hi]
        exact hstep

/-- Receiving keeps the part of the target buffer which storing depends on,
and clears every change bit of a byte which was pending. -/
theorem SynchronizedTargetBuffer.finishReceive_spec
    {sync : SynchronizedTargetBuffer} (hwf : sync.WellFormed)
    (hbidir : sync.bidirectional = true) (hused : sync.bufUsed = true)
    (hreceived : ∀ i, 0 ≤ i → i < sync.ndata →
      changeBit sync.buf sync.ndata i = true → sync.Pending i) :
    sync.finishReceive.incoming = sync.incoming ∧
      sync.finishReceive.WellFormed ∧
      (∀ i, i < sync.ndata → sync.finishReceive.buf i = sync.buf i) ∧
      ∀ i, 0 ≤ i → i < sync.ndata →
        changeBit sync.finishReceive.buf sync.ndata i = false := by
  obtain ⟨hlo, hle, hhi⟩ := hwf.bufRange hused
  have hbuf : sync.finishReceive.buf =
      clearRange sync.buf (sync.ndata + sync.bufStartAddr / 8)
        (sync.ndata + sync.bufEndAddr / 8) := by
    simp [SynchronizedTargetBuffer.finishReceive, hbidir]
  have hdata : ∀ i, i < sync.ndata → sync.finishReceive.buf i = sync.buf i := by
    intro i hi
    rw [hbuf, clearRange_apply, if_neg (by omega)]
  refine ⟨rfl, ⟨hwf.newRange, fun h => ?_, fun i h0 hi hfresh => ?_⟩, hdata,
    fun i h0 hi => ?_⟩
  · simp [SynchronizedTargetBuffer.finishReceive] at h
  · rw [hdata i hi]
    exact hwf.copied i h0 hi hfresh
  · unfold changeBit
    rw [hbuf, clearRange_apply]
    by_cases hin : sync.ndata + sync.bufStartAddr / 8 ≤ sync.ndata + i / 8 ∧
        sync.ndata + i / 8 ≤ sync.ndata + sync.bufEndAddr / 8
    · rw [if_pos hin]
      simp
    · rw [if_neg hin]
      by_contra hbit
      have hpending := hreceived i h0 hi (by simpa [changeBit] using hbit)
      have := hpending.2
      omega

theorem BidirectionalLink.simulates_receive
    (hends : ∀ side, (s.ends side).Invariant n side) (hflow : s.Flow jobs)
    {side : Side} {mblk' : MemoryBlock} {sbuf' : SourceBuffer}
    {tbuf' : TargetBuffer}
    (hreceive :
      receive (s.ends side).mblk [(s.ends side).sbuf] [(s.ends side).tbuf] =
        (mblk', [sbuf'], [tbuf'])) :
    s.Simulates n
      { s with ends := Function.update s.ends side ⟨mblk', sbuf', tbuf'⟩ }
      jobs := by
  have he := hends side
  simp only [Iocom.receive, he.static, Bool.false_eq_true, if_false,
    receiveTargetBuffer] at hreceive
  cases hused : (s.ends side).tbuf.syncbuf.bufUsed with
  | false =>
      simp only [hused, Bool.false_eq_true, if_false, Prod.mk.injEq,
        List.cons.injEq, and_true] at hreceive
      obtain ⟨rfl, rfl, rfl⟩ := hreceive
      rw [show (⟨(s.ends side).mblk, (s.ends side).sbuf, (s.ends side).tbuf⟩ :
        BidirectionalEnd) = s.ends side from rfl, Function.update_eq_self]
      exact ⟨hends, jobs, hflow, fun i _ _ => .inl rfl⟩
  | true =>
      simp only [hused, if_true, he.tbufBidirectional, List.map_cons,
        List.map_nil, Prod.mk.injEq, List.cons.injEq, and_true] at hreceive
      obtain ⟨rfl, rfl, rfl⟩ := hreceive
      have hn := he.tbufSize
      have hreceived := he.received
      rw [← hn] at hreceived
      obtain ⟨hincoming, hwf, hdata, hbits⟩ :=
        SynchronizedTargetBuffer.finishReceive_spec he.wellFormed
          he.tbufBidirectional hused hreceived
      obtain ⟨hlo, hle, hhi⟩ := he.wellFormed.bufRange hused
      rw [hn] at hdata hbits hhi
      have hskip : (s.ends side).sbuf.skipsEcho (s.ends side).tbuf =
          !decide (side = .echoing) := by
        simp [SourceBuffer.skipsEcho, he.samePeer, he.connectUp]
      have hmarks := (s.ends side).sbuf.echo_marksWhere
        ((s.ends side).mblk.copyReceived (s.ends side).tbuf.syncbuf)
        (s.ends side).tbuf he.hasBuf he.sbufBidirectional hlo hle hhi
      rw [hskip, hn] at hmarks
      generalize (s.ends side).sbuf.echo
        ((s.ends side).mblk.copyReceived (s.ends side).tbuf.syncbuf)
        (s.ends side).tbuf = sbuf' at *
      have hmarked : ({ s.ends side with
          mblk := (s.ends side).mblk.copyReceived (s.ends side).tbuf.syncbuf
          sbuf := sbuf' } : BidirectionalEnd).Invariant n side :=
        he.mark ⟨rfl, rfl⟩ hmarks
      refine ⟨update_ends_invariant hends ?_, jobs,
        hflow.update_end hincoming hmarks.transfers, fun i h0 hi => .inr ?_⟩
      · exact
          { size := hmarked.size
            sbufSize := hmarked.sbufSize
            tbufSize := hn
            static := hmarked.static
            hasBuf := hmarked.hasBuf
            sbufBidirectional := hmarked.sbufBidirectional
            tbufBidirectional := he.tbufBidirectional
            samePeer := hmarked.samePeer
            connectUp := hmarked.connectUp
            within := hmarked.within
            marked := hmarked.marked
            wellFormed := hwf
            received := fun i h0 hi hbit => by
              rw [hbits i h0 hi] at hbit
              contradiction }
      · -- The byte is taken over if its change bit has been received.
        have hbit := hmarks.changeBits i
        rw [he.sbufSize] at hbit
        have hsent := hmarks.data i (by rw [he.sbufSize]; exact hi)
        have hrange : (decide ((s.ends side).tbuf.syncbuf.bufStartAddr ≤ i ∧
              i ≤ (s.ends side).tbuf.syncbuf.bufEndAddr) &&
            changeBit (s.ends side).tbuf.syncbuf.buf n i) =
              changeBit (s.ends side).tbuf.syncbuf.buf n i := by
          cases hb : changeBit (s.ends side).tbuf.syncbuf.buf n i with
          | false => simp
          | true => simp [(he.received i h0 hi hb).2]
        have hvalue : ((s.ends side).mblk.copyReceived
            (s.ends side).tbuf.syncbuf).buf i =
              if changeBit (s.ends side).tbuf.syncbuf.buf n i then
                (s.ends side).tbuf.syncbuf.buf i
              else (s.ends side).mblk.buf i := by
          have hcopied := (s.ends side).mblk.copyReceived_apply he.tbufBidirectional
            (fun hb => he.received i h0 hi (by rwa [hn] at hb))
          rw [hn] at hcopied
          exact hcopied
        rw [hrange] at hbit
        rw [BidirectionalLink.cell_update]
        have hcell : (⟨(s.ends side).mblk.copyReceived
              (s.ends side).tbuf.syncbuf, sbuf',
            { (s.ends side).tbuf with
              syncbuf := (s.ends side).tbuf.syncbuf.finishReceive }⟩ :
              BidirectionalEnd).cell n i =
            { (s.cell jobs n i).ends side with
              value :=
                if ((s.cell jobs n i).ends side).mark then
                  ((s.cell jobs n i).ends side).arrived
                else ((s.cell jobs n i).ends side).value
              dirty :=
                ((s.cell jobs n i).ends side).dirty ||
                  (decide (side = .echoing) &&
                    ((s.cell jobs n i).ends side).mark)
              mark := false } := by
          simp only [BidirectionalEnd.cell, BidirectionalLink.cell, hbit, hsent,
            hvalue, hdata i hi, hbits i h0 hi, Bool.not_not]
          rfl
        rw [hcell]
        exact .takeOver (s.cell jobs n i) side

end Steps

theorem BidirectionalLink.Invariant.step
    {n : ℤ} {s t : BidirectionalLink} (h : s.Invariant n)
    (hstep : BidirectionalStep s t) : t.Invariant n := by
  obtain ⟨jobs, hflow, hcells⟩ := h.flow
  cases hstep with
  | write side addr data mblk' sbuf' haddr hdata hwrite =>
      exact .of_simulates hcells
        (s.simulates_write h.ends hflow haddr hdata hwrite)
  | send side sbuf' hsend =>
      exact .of_simulates hcells (s.simulates_send h.ends hflow hsend)
  | cancelFrame side con hused hcancel => exact h
  | sendFrame side con con' sbuf' frame hused hheader hmake =>
      exact .of_simulates hcells
        (s.simulates_sendFrame h.ends hflow hused hmake)
  | deliver side frame rest hchannel =>
      exact .of_simulates hcells (s.simulates_deliver h.ends hflow hchannel)
  | receive side mblk' sbuf' tbuf' hreceive =>
      exact .of_simulates hcells (s.simulates_receive h.ends hflow hreceive)

/-! ## Convergence -/

/-- Equal contents, finished key frames and no pending data: what an end has
sent last is what the other end has received, the device has sent what its
copy holds, and no change bit is set. -/
structure BidirectionalStart (n : ℤ) (s : BidirectionalLink) : Prop where
  size : 1 ≤ n ∧ transferBytes n true < 0x80000000
  blocks : ∀ side, (s.ends side).mblk.nbytes = n ∧
    (s.ends side).mblk.flags.down = true ∧
    (s.ends side).mblk.flags.bidirectional = true ∧
    (s.ends side).mblk.flags.static = false
  sbufs : ∀ side, (s.ends side).sbuf.syncbuf.hasBuf = true ∧
    (s.ends side).sbuf.syncbuf.bidirectional = true ∧
    (s.ends side).sbuf.syncbuf.ndata = n ∧
    (s.ends side).sbuf.syncbuf.makeKeyframe = false
  tbufs : ∀ side, (s.ends side).tbuf.syncbuf.bidirectional = true ∧
    (s.ends side).tbuf.syncbuf.ndata = n ∧
    (s.ends side).tbuf.syncbuf.nbytes = transferBytes n true
  peers : ∀ side, (s.ends side).sbuf.clink = (s.ends side).tbuf.clink ∧
    (s.ends side).sbuf.remoteMblkId = (s.ends side).tbuf.remoteMblkId ∧
    (s.ends side).sbuf.clink.connectUp = decide (side = .echoing)
  nothingToSend : ∀ side, (s.ends side).sbuf.changed.rangeSet = false ∧
    (s.ends side).sbuf.syncbuf.used = false ∧ s.channel side = []
  nothingToReceive : ∀ side, (s.ends side).tbuf.syncbuf.hasNewData = false ∧
    (s.ends side).tbuf.syncbuf.bufUsed = false
  noMarks : ∀ side i, 0 ≤ i → i < n →
    changeBit (s.ends side).sbuf.syncbuf.buf n i = false ∧
      changeBit (s.ends side).tbuf.syncbuf.buf n i = false
  equal : ∀ i, 0 ≤ i → i < n →
    (s.ends .plain).mblk.buf i = (s.ends .echoing).mblk.buf i
  sent : ∀ side i, 0 ≤ i → i < n →
    (s.ends side.other).tbuf.syncbuf.newdata i =
        (s.ends side).sbuf.syncbuf.buf i ∧
      (s.ends side.other).tbuf.syncbuf.buf i =
        (s.ends side).sbuf.syncbuf.buf i
  deviceSent : ∀ i, 0 ≤ i → i < n →
    (s.ends .echoing).sbuf.syncbuf.buf i = (s.ends .echoing).mblk.buf i

/-- Nothing is waiting to be sent, on its way, or waiting to be received. -/
structure BidirectionalLink.Quiet (s : BidirectionalLink) : Prop where
  noChange : ∀ side, (s.ends side).sbuf.changed.rangeSet = false
  unused : ∀ side, (s.ends side).sbuf.syncbuf.used = false
  channel : ∀ side, s.channel side = []
  noNewData : ∀ side, (s.ends side).tbuf.syncbuf.hasNewData = false
  noPending : ∀ side, (s.ends side).tbuf.syncbuf.bufUsed = false

theorem BidirectionalStart.invariant
    {n : ℤ} {s : BidirectionalLink} (h : BidirectionalStart n s) :
    s.Invariant n := by
  refine ⟨fun side => ?_, fun _ => [], ⟨fun side => ?_, ?_⟩, fun i h0 hi => ?_⟩
  · obtain ⟨hnbytes, -, -, hstatic⟩ := h.blocks side
    obtain ⟨hhas, hsb, hsn, hkey⟩ := h.sbufs side
    obtain ⟨htb, htn, -⟩ := h.tbufs side
    obtain ⟨hclink, hremote, hup⟩ := h.peers side
    obtain ⟨hset, -⟩ := h.nothingToSend side
    obtain ⟨hnew, hpend⟩ := h.nothingToReceive side
    exact
      { size := hnbytes
        sbufSize := hsn
        tbufSize := htn
        static := hstatic
        hasBuf := hhas
        sbufBidirectional := hsb
        tbufBidirectional := htb
        samePeer := ⟨by rw [hclink], hremote⟩
        connectUp := hup
        within := fun hs => by simp [hset] at hs
        marked := fun i h0 hi hbit => by
          rw [(h.noMarks side i h0 hi).1] at hbit
          contradiction
        wellFormed :=
          { newRange := fun hs => by simp [hnew] at hs
            bufRange := fun hs => by simp [hpend] at hs
            copied := fun i h0 hi _ => by
              have hsent := h.sent side.other i h0 (by omega)
              rw [Side.other_other] at hsent
              rw [hsent.1, hsent.2] }
        received := fun i h0 hi hbit => by
          rw [(h.noMarks side i h0 hi).2] at hbit
          contradiction }
  · obtain ⟨hhas, hsb, hsn, -⟩ := h.sbufs side
    obtain ⟨htb, htn, htbytes⟩ := h.tbufs side.other
    obtain ⟨-, hunused, hchannel⟩ := h.nothingToSend side
    rw [hchannel]
    refine .empty (.idle ?_)
    have hsize := h.size
    exact
      { sizes :=
          { hasBuf := hhas
            ndata := hsn.trans htn.symm
            bidirectional := hsb.trans htb.symm
            nbytes := by
              change (s.ends side.other).tbuf.syncbuf.nbytes =
                transferBytes (s.ends side.other).tbuf.syncbuf.ndata
                  (s.ends side.other).tbuf.syncbuf.bidirectional
              rw [htbytes, htn, htb]
            pos := by
              change 0 < (s.ends side.other).tbuf.syncbuf.ndata
              omega
            bound := by
              change (s.ends side.other).tbuf.syncbuf.nbytes < _
              omega }
        unused := hunused
        finished := (h.nothingToReceive side.other).1
        equal := .inr fun i h0 hi => (h.sent side i h0 (by
          change i < (s.ends side.other).tbuf.syncbuf.ndata at hi
          omega)).1 }
  · intro side job hjob
    simp at hjob
  · exact
      { sent := fun _ => h.deviceSent i h0 hi
        chain := (h.sent .echoing i h0 hi).2
        agree := fun _ => .inr (h.equal i h0 hi) }

/-- Bidirectional convergence: in every run, whenever nothing is waiting and
nothing is on its way, the two copies of the block are equal. -/
theorem bidirectional_convergence
    {n : ℤ} {s₀ s : BidirectionalLink} (hstart : BidirectionalStart n s₀)
    (hrun : Relation.ReflTransGen BidirectionalStep s₀ s) (hquiet : s.Quiet) :
    (s.ends .plain).mblk.contents = (s.ends .echoing).mblk.contents := by
  have h := TransitionSystem.invariant_of_run _ (fun _ _ h hstep => h.step hstep)
    hstart.invariant hrun
  obtain ⟨jobs, hflow, hcells⟩ := h.flow
  have hsize := (h.ends .plain).size
  rw [MemoryBlock.contents_eq_iff (hsize.trans (h.ends .echoing).size.symm)]
  intro i h0 hi
  have hi' : i < n := by omega
  refine (hcells i h0 hi').value_eq (fun side => ?_) (fun side => ?_)
    (fun side => ?_)
  · change changeBit (s.ends side).sbuf.syncbuf.buf n i = false
    by_contra hbit
    have hcov := (h.ends side).marked i h0 hi' (by simpa using hbit)
    rw [InvalidatedRange.Covers, hquiet.noChange side] at hcov
    exact absurd hcov.1 (by simp)
  · have hpending := hflow.transfer side
    rw [hquiet.channel side] at hpending
    have hidle := hpending.of_empty.idle_of_unused (hquiet.unused side)
    simp [BidirectionalLink.cell, hidle.1]
  · change changeBit (s.ends side).tbuf.syncbuf.buf n i = false
    by_contra hbit
    have hpend := (h.ends side).received i h0 hi' (by simpa using hbit)
    rw [SynchronizedTargetBuffer.Pending, hquiet.noPending side] at hpend
    exact absurd hpend.1 (by simp)

def quietTwoByteLink : BidirectionalLink where
  ends := fun side =>
    let clink : ConnectionLink := ⟨0, decide (side = .echoing)⟩
    { mblk := ⟨10, ⟨true, false, true, false, false⟩, 2, true, fun _ => 5⟩
      sbuf :=
        { remoteMblkId := 10
          changed := ⟨false, 0, 0⟩
          syncbuf :=
            { hasBuf := true
              buf := fun i => if i < 2 then 5 else 0
              delta := fun _ => 0
              nbytes := 3
              ndata := 2
              bidirectional := true
              used := false
              makeKeyframe := false
              isKeyframe := false
              startAddr := 0
              endAddr := 0
              bidirStartAddr := 0
              bidirEndAddr := 0
              bidirRangeSet := false }
          clink := clink }
      tbuf :=
        { remoteMblkId := 10
          syncbuf :=
            { buf := fun i => if i < 2 then 5 else 0
              newdata := fun i => if i < 2 then 5 else 0
              nbytes := 3
              ndata := 2
              bidirectional := true
              bufUsed := false
              bufStartAddr := 0
              bufEndAddr := 0
              hasNewData := false
              newdataStartAddr := 0
              newdataEndAddr := 0 }
          clink := clink } }
  channel := fun _ => []

theorem quietTwoByteLink_start : BidirectionalStart 2 quietTwoByteLink where
  size := by decide
  blocks := fun _ => ⟨rfl, rfl, rfl, rfl⟩
  sbufs := fun _ => ⟨rfl, rfl, rfl, rfl⟩
  tbufs := fun _ => ⟨rfl, rfl, rfl⟩
  peers := fun _ => ⟨rfl, rfl, rfl⟩
  nothingToSend := fun _ => ⟨rfl, rfl, rfl⟩
  nothingToReceive := fun _ => ⟨rfl, rfl⟩
  noMarks := fun _ i h0 hi => by
    have hout : ¬(2 + i / 8 < 2) := by omega
    have hbit : (if 2 + i / 8 < 2 then 5 else 0 : UInt8) = 0 := if_neg hout
    simp only [quietTwoByteLink, changeBit, hbit]
    exact ⟨Nat.zero_testBit _, Nat.zero_testBit _⟩
  equal := fun _ _ _ => rfl
  sent := fun _ _ _ _ => ⟨rfl, rfl⟩
  deviceSent := fun _ _ hi => if_pos hi

inductive BidirectionalAction
  | write (side : Side) (addr : ℤ) (data : List UInt8)
  | send (side : Side)
  | sendFrame (side : Side) (con : Connection)
  | deliver (side : Side)
  | receive (side : Side)

def BidirectionalLink.play (s : BidirectionalLink) :
    BidirectionalAction → Option BidirectionalLink
  | .write side addr data =>
      match write (s.ends side).mblk [(s.ends side).sbuf] addr data with
      | (mblk', [sbuf']) =>
          if 0 ≤ addr ∧ data ≠ [] then
            some
              { s with
                ends := Function.update s.ends side
                  { s.ends side with mblk := mblk', sbuf := sbuf' } }
          else none
      | _ => none
  | .send side =>
      match send (s.ends side).mblk [(s.ends side).sbuf] with
      | [sbuf'] =>
          some
            { s with ends := Function.update s.ends side { s.ends side with sbuf := sbuf' } }
      | _ => none
  | .sendFrame side con =>
      match makeDataFrame con (s.ends side).mblk (s.ends side).sbuf with
      | some (_, sbuf', frame) =>
          if (s.ends side).sbuf.syncbuf.used = true ∧
              headerSize con.isSocket (osUint (s.ends side).sbuf.remoteMblkId)
                (osUint (s.ends side).sbuf.syncbuf.startAddr) ≤ con.dstFrameSz then
            some
              { ends := Function.update s.ends side { s.ends side with sbuf := sbuf' }
                channel := Function.update s.channel side (s.channel side ++ [frame]) }
          else none
      | none => none
  | .deliver side =>
      match s.channel side with
      | frame :: rest =>
          some
            { ends := Function.update s.ends side.other
                { s.ends side.other with
                  tbuf := ((s.ends side.other).tbuf.storeFrame frame).2 }
              channel := Function.update s.channel side rest }
      | [] => none
  | .receive side =>
      match receive (s.ends side).mblk [(s.ends side).sbuf] [(s.ends side).tbuf] with
      | (mblk', [sbuf'], [tbuf']) =>
          some { s with ends := Function.update s.ends side ⟨mblk', sbuf', tbuf'⟩ }
      | _ => none

theorem BidirectionalLink.play_step {s t : BidirectionalLink} {action : BidirectionalAction}
    (h : s.play action = some t) : BidirectionalStep s t := by
  unfold BidirectionalLink.play at h
  cases action with
  | write side addr data =>
      dsimp only at h
      split at h
      next mblk' sbuf' hwrite =>
        split_ifs at h with hvalid
        obtain rfl := Option.some.inj h
        exact .write s side addr data mblk' sbuf' hvalid.1 hvalid.2 hwrite
      · cases h
  | send side =>
      dsimp only at h
      split at h
      next sbuf' hsend =>
        obtain rfl := Option.some.inj h
        exact .send s side sbuf' hsend
      · cases h
  | sendFrame side con =>
      dsimp only at h
      split at h
      next con' sbuf' frame hmake =>
        split_ifs at h with hready
        obtain rfl := Option.some.inj h
        exact .sendFrame s side con con' sbuf' frame hready.1 hready.2 hmake
      · cases h
  | deliver side =>
      dsimp only at h
      split at h
      next frame rest hchannel =>
        obtain rfl := Option.some.inj h
        exact .deliver s side frame rest hchannel
      · cases h
  | receive side =>
      dsimp only at h
      split at h
      next mblk' sbuf' tbuf' hreceive =>
        obtain rfl := Option.some.inj h
        exact .receive s side mblk' sbuf' tbuf' hreceive
      · cases h

/-- Both ends write byte 0 before either has heard of the other, and take over what the other
end wrote; what the device sends back settles it. -/
def crossingWrites : List BidirectionalAction :=
  let con := serialSender 16
  [.write .plain 0 [1, 3], .write .echoing 0 [2], .send .plain, .send .echoing,
    .sendFrame .plain con, .sendFrame .plain con, .sendFrame .echoing con,
    .sendFrame .echoing con, .deliver .plain, .deliver .echoing, .deliver .plain,
    .deliver .echoing, .receive .plain, .receive .echoing, .send .echoing,
    .sendFrame .echoing con, .sendFrame .echoing con, .deliver .echoing, .deliver .echoing,
    .receive .plain]

def BidirectionalLink.holds (s : BidirectionalLink) (side : Side) :
    List UInt8 × List (List UInt8) × List Bool :=
  ((s.ends side).mblk.contents, (s.channel side).map (·.payload),
    [(s.ends side).sbuf.changed.rangeSet, (s.ends side).sbuf.syncbuf.used,
      (s.ends side).tbuf.syncbuf.hasNewData, (s.ends side).tbuf.syncbuf.bufUsed])

theorem bidirectional_convergence_quietTwoByteLink :
    ∃ s, crossingWrites.foldlM BidirectionalLink.play quietTwoByteLink = some s ∧
      (s.ends .plain).mblk.contents = [1, 3] ∧
      (s.ends .plain).mblk.contents = (s.ends .echoing).mblk.contents := by
  obtain ⟨s, hs, hholds⟩ : ∃ s,
      crossingWrites.foldlM BidirectionalLink.play quietTwoByteLink = some s ∧
        [s.holds .plain, s.holds .echoing] =
          List.replicate 2 ([1, 3], [], [false, false, false, false]) :=
    Option.map_eq_some_iff.mp (by decide)
  simp only [List.replicate, BidirectionalLink.holds, List.cons.injEq, Prod.mk.injEq,
    List.map_eq_nil_iff, and_true] at hholds
  obtain ⟨⟨hplain, hchannel, hsend, hused, hnew, hpending⟩, -, hchannel', hsend', hused', hnew',
    hpending'⟩ := hholds
  refine ⟨s, hs, hplain, bidirectional_convergence quietTwoByteLink_start
    (TransitionSystem.run_of_play (fun _ _ _ => BidirectionalLink.play_step) hs) ?_⟩
  exact
    { noChange := fun side => by cases side <;> assumption
      unused := fun side => by cases side <;> assumption
      channel := fun side => by cases side <;> assumption
      noNewData := fun side => by cases side <;> assumption
      noPending := fun side => by cases side <;> assumption }

end Iocom
