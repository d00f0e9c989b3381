import Iocom.SnapshotTransfer
import Iocom.MemoryBlockAccess
import Iocom.Lib.TransitionSystem
import Iocom.Lib.History
import Mathlib.Data.List.Forall2

/-!
# Snapshot replication of a memory block

One memory block, linked by a source buffer to a target buffer of the same
size at the other end of a connection.  Local writes, synchronization, data
frames, deliveries and receives interleave freely; the history records what
the sender's block held at every snapshot, and what every receive showed.
-/

namespace Iocom

/-- Both ends of a one-way link.  `snapshots` and `results` are history: the
contents of the sender's block when a snapshot was taken, and after each
`ioc_receive` the number of snapshots taken by then and the contents of the
receiver's block. -/
structure Replication where
  sender : MemoryBlock
  sbuf : SourceBuffer
  channel : List Frame
  tbuf : TargetBuffer
  receiver : MemoryBlock
  snapshots : List (List UInt8)
  results : List (ℕ × List UInt8)

/-- The link has just been made: the buffers are newly initialized. -/
structure ReplicationStart (s : Replication) : Prop where
  size : 1 ≤ s.sender.nbytes ∧ s.sender.nbytes < 0x80000000
  sameSize : s.receiver.nbytes = s.sender.nbytes
  senderStatic : s.sender.flags.static = false
  receiverStatic : s.receiver.flags.static = false
  sbuf : ∃ con remoteMblkId,
    s.sbuf = initializeSourceBuffer con s.sender remoteMblkId false
  tbuf : ∃ con remoteMblkId,
    s.tbuf = initializeTargetBuffer con s.receiver remoteMblkId false
  channel : s.channel = []
  snapshots : s.snapshots = []
  results : s.results = []

/-- `ioc_sbuf_synchronize` has taken a snapshot. -/
def SourceBuffer.tookSnapshot (before after : SourceBuffer) : Bool :=
  !before.syncbuf.used && after.syncbuf.used

inductive ReplicationStep : Replication → Replication → Prop
  | write (s : Replication) (addr : ℤ) (data : List UInt8)
      (sender' : MemoryBlock) (sbuf' : SourceBuffer)
      (haddr : 0 ≤ addr) (hdata : data ≠ [])
      (hwrite : write s.sender [s.sbuf] addr data = (sender', [sbuf'])) :
      ReplicationStep s { s with sender := sender', sbuf := sbuf' }
  | synchronize (s : Replication) :
      ReplicationStep s
        { s with
          sbuf := s.sbuf.synchronize s.sender
          snapshots :=
            if s.sbuf.tookSnapshot (s.sbuf.synchronize s.sender) then
              s.snapshots ++ [s.sender.contents]
            else s.snapshots }
  | cancelFrame (s : Replication) (con : Connection)
      (hused : s.sbuf.syncbuf.used = true)
      (hcancel : makeDataFrame con s.sender s.sbuf = none) :
      ReplicationStep s s
  | sendFrame (s : Replication) (con con' : Connection) (sbuf' : SourceBuffer)
      (frame : Frame)
      (hused : s.sbuf.syncbuf.used = true)
      (hheader :
        headerSize con.isSocket (osUint s.sbuf.remoteMblkId)
          (osUint s.sbuf.syncbuf.startAddr) ≤ con.dstFrameSz)
      (hmake : makeDataFrame con s.sender s.sbuf = some (con', sbuf', frame)) :
      ReplicationStep s
        { s with sbuf := sbuf', channel := s.channel ++ [frame] }
  | deliver (s : Replication) (frame : Frame) (rest : List Frame)
      (hchannel : s.channel = frame :: rest) :
      ReplicationStep s
        { s with channel := rest, tbuf := (s.tbuf.storeFrame frame).2 }
  | receive (s : Replication) (receiver' : MemoryBlock) (tbuf' : TargetBuffer)
      (hreceive : receive s.receiver [] [s.tbuf] = (receiver', [], [tbuf'])) :
      ReplicationStep s
        { s with
          receiver := receiver'
          tbuf := tbuf'
          results := s.results ++ [(s.snapshots.length, receiver'.contents)] }

/-- The contents the receiver may show: its own at the beginning, and then one
snapshot after the other. -/
def Replication.versions (s : Replication) (initial : List UInt8) :
    List (List UInt8) :=
  initial :: s.snapshots

/-- The results of the receives so far are versions in order, each of a
snapshot taken before. -/
def OrderedResults (versions : List (List UInt8))
    (results : List (ℕ × List UInt8)) (shown : ℕ) : Prop :=
  ∃ indexes : List ℕ,
    indexes.Pairwise (· ≤ ·) ∧ (∀ k ∈ indexes, k ≤ shown) ∧
      List.Forall₂
        (fun result k => k ≤ result.1 ∧ versions[k]? = some result.2)
        results indexes

structure ReplicationInvariant (initial : List UInt8) (s : Replication) : Prop where
  senderSize : s.sender.nbytes = s.tbuf.syncbuf.ndata
  receiverSize : s.receiver.nbytes = s.tbuf.syncbuf.ndata
  receiverStatic : s.receiver.flags.static = false
  hasBuf : s.sbuf.syncbuf.hasBuf = true
  sameData : s.sbuf.syncbuf.ndata = s.tbuf.syncbuf.ndata
  oneWay : s.sbuf.syncbuf.bidirectional = false
  tbufOneWay : s.tbuf.syncbuf.bidirectional = false
  within : s.sbuf.changed.Within s.tbuf.syncbuf.ndata
  covered :
    s.sbuf.syncbuf.makeKeyframe = true ∨
      ∀ i, 0 ≤ i → i < s.tbuf.syncbuf.ndata →
        s.sender.buf i ≠ s.sbuf.syncbuf.buf i → s.sbuf.changed.Covers i
  keyframe : s.sbuf.syncbuf.makeKeyframe = true ↔ s.snapshots = []
  wellFormed : s.tbuf.syncbuf.WellFormed
  transfer : ∃ (jobs : List Snapshot) (completed shown : ℕ),
    OrderedChannel.Pending Incoming.accept Transfers s.tbuf.syncbuf.incoming
        s.channel jobs s.sbuf.syncbuf ∧
      jobs.map (fun job =>
          Segment.segment job.data 0 s.tbuf.syncbuf.ndata.toNat) =
        (s.versions initial).drop (completed + 1) ∧
      (s.versions initial)[completed]? =
        some (Segment.segment s.tbuf.syncbuf.buf 0 s.tbuf.syncbuf.ndata.toNat) ∧
      shown ≤ completed ∧
      (s.versions initial)[shown]? = some s.receiver.contents ∧
      OrderedResults (s.versions initial) s.results shown
  copied :
    ∀ i, 0 ≤ i → i < s.tbuf.syncbuf.ndata → ¬s.tbuf.syncbuf.Pending i →
      s.receiver.buf i = s.tbuf.syncbuf.buf i

/-! ## The history of versions -/

theorem OrderedResults.append_version
    {versions : List (List UInt8)} {results : List (ℕ × List UInt8)} {shown : ℕ}
    (h : OrderedResults versions results shown) (version : List UInt8) :
    OrderedResults (versions ++ [version]) results shown := by
  obtain ⟨indexes, hsorted, hbound, hall⟩ := h
  refine ⟨indexes, hsorted, hbound, hall.imp ?_⟩
  intro result k hk
  exact ⟨hk.1, History.getElem?_append_of_some hk.2⟩

theorem OrderedResults.append_result
    {versions : List (List UInt8)} {results : List (ℕ × List UInt8)}
    {shown later taken : ℕ} {contents : List UInt8}
    (h : OrderedResults versions results shown) (hlater : shown ≤ later)
    (htaken : later ≤ taken) (hcontents : versions[later]? = some contents) :
    OrderedResults versions (results ++ [(taken, contents)]) later := by
  obtain ⟨indexes, hsorted, hbound, hall⟩ := h
  refine ⟨indexes ++ [later], ?_, ?_, ?_⟩
  · rw [List.pairwise_append]
    refine ⟨hsorted, List.pairwise_singleton _ _, ?_⟩
    intro k hk j hj
    rw [List.mem_singleton.mp hj]
    exact (hbound k hk).trans hlater
  · intro k hk
    rcases List.mem_append.mp hk with hk | hk
    · exact (hbound k hk).trans hlater
    · rw [List.mem_singleton.mp hk]
  · exact List.rel_append hall (.cons ⟨htaken, hcontents⟩ .nil)

/-! ## Every step keeps the invariant -/

theorem ReplicationStart.invariant
    {s : Replication} (h : ReplicationStart s) :
    ReplicationInvariant s.receiver.contents s := by
  obtain ⟨con, remoteMblkId, hsbuf⟩ := h.sbuf
  obtain ⟨con', remoteMblkId', htbuf⟩ := h.tbuf
  have hn : s.tbuf.syncbuf.ndata = s.receiver.nbytes := by rw [htbuf]; rfl
  have hsn : s.sbuf.syncbuf.ndata = s.sender.nbytes := by
    rw [hsbuf]
    simp [initializeSourceBuffer, h.senderStatic]
  have hcopied : ∀ i, i < s.tbuf.syncbuf.ndata →
      s.tbuf.syncbuf.buf i = s.receiver.buf i := by
    intro i hi
    rw [hn] at hi
    rw [htbuf]
    simp [initializeTargetBuffer, hi]
  have hcontents : s.receiver.contents =
      Segment.segment s.tbuf.syncbuf.buf 0 s.tbuf.syncbuf.ndata.toNat := by
    unfold MemoryBlock.contents
    rw [hn]
    exact Segment.segment_eq_iff.mpr fun i h0 hi =>
      (hcopied i (by omega)).symm
  have hwf : s.tbuf.syncbuf.WellFormed :=
    { newRange := fun hnew => by rw [htbuf] at hnew; simp [initializeTargetBuffer] at hnew
      bufRange := fun hused => by rw [htbuf] at hused; simp [initializeTargetBuffer] at hused
      copied := fun i h0 hi _ => by
        rw [hn] at hi
        rw [htbuf]
        simp [initializeTargetBuffer, hi] }
  have hidle : IdlePhase s.tbuf.syncbuf.incoming s.sbuf.syncbuf :=
    { sizes :=
        { hasBuf := by rw [hsbuf]; simp [initializeSourceBuffer, h.senderStatic]
          ndata := by
            rw [hsn, ← h.sameSize, ← hn]
            rfl
          bidirectional := by
            rw [hsbuf, htbuf]
            simp [initializeSourceBuffer, initializeTargetBuffer,
              SynchronizedTargetBuffer.incoming]
          nbytes := by rw [htbuf]; rfl
          pos := by
            have := h.size
            have hpos : s.tbuf.syncbuf.incoming.ndata = s.receiver.nbytes := hn
            rw [hpos, h.sameSize]
            omega
          bound := by
            have := h.size
            rw [htbuf]
            change transferBytes s.receiver.nbytes false < _
            rw [h.sameSize]
            simp only [transferBytes, Bool.false_eq_true, if_false]
            omega }
      unused := by rw [hsbuf]; rfl
      finished := by rw [htbuf]; rfl
      equal := .inl (by rw [hsbuf]; rfl) }
  exact
    { senderSize := by rw [hn, h.sameSize]
      receiverSize := hn.symm
      receiverStatic := h.receiverStatic
      hasBuf := hidle.sizes.hasBuf
      sameData := hidle.sizes.ndata
      oneWay := by rw [hsbuf]; simp [initializeSourceBuffer]
      tbufOneWay := by rw [htbuf]; rfl
      within := fun hset => by rw [hsbuf] at hset; simp [initializeSourceBuffer] at hset
      covered := .inl (by rw [hsbuf]; rfl)
      keyframe := by rw [hsbuf, h.snapshots]; simp [initializeSourceBuffer]
      wellFormed := hwf
      transfer := by
        refine ⟨[], 0, 0, ?_, ?_, ?_, le_rfl, ?_, [], .nil, ?_, ?_⟩
        · rw [h.channel]
          exact .empty (.idle hidle)
        · simp [Replication.versions, h.snapshots]
        · simp [Replication.versions, hcontents]
        · simp [Replication.versions]
        · intro k hk
          simp at hk
        · rw [h.results]
          exact .nil
      copied := fun i h0 hi _ => (hcopied i hi).symm }

theorem ReplicationInvariant.write
    {initial : List UInt8} {s : Replication} (h : ReplicationInvariant initial s)
    {addr : ℤ} {data : List UInt8} {sender' : MemoryBlock} {sbuf' : SourceBuffer}
    (haddr : 0 ≤ addr) (hdata : data ≠ [])
    (hwrite : write s.sender [s.sbuf] addr data = (sender', [sbuf'])) :
    ReplicationInvariant initial { s with sender := sender', sbuf := sbuf' } := by
  unfold Iocom.write at hwrite
  split at hwrite
  · simp only [Prod.mk.injEq, List.cons.injEq, and_true] at hwrite
    obtain ⟨rfl, rfl⟩ := hwrite
    exact h
  rename_i hroom
  simp only [List.map_cons, List.map_nil, Prod.mk.injEq, List.cons.injEq,
    and_true] at hwrite
  obtain ⟨rfl, rfl⟩ := hwrite
  have hlen : 0 < data.length := List.length_pos_iff.mpr hdata
  have hcount : 0 < s.sender.writeCount addr data.length ∧
      addr + s.sender.writeCount addr data.length ≤ s.sender.nbytes := by
    unfold MemoryBlock.writeCount
    omega
  have hmarks := s.sbuf.invalidate_marks (s.sender.store addr data)
    h.hasBuf haddr
    (show addr ≤ addr + s.sender.writeCount addr data.length - 1 by omega)
  have hsame := hmarks.oneWay h.oneWay
  have hsize := h.senderSize
  generalize s.sbuf.invalidate (s.sender.store addr data) addr
    (addr + s.sender.writeCount addr data.length - 1) = sbuf' at *
  exact
    { senderSize := h.senderSize
      receiverSize := h.receiverSize
      receiverStatic := h.receiverStatic
      hasBuf := by rw [hsame]; exact h.hasBuf
      sameData := by rw [hsame]; exact h.sameData
      oneWay := by rw [hsame]; exact h.oneWay
      tbufOneWay := h.tbufOneWay
      within := hmarks.within s.tbuf.syncbuf.ndata (by omega) h.within
      covered := by
        rw [hsame]
        rcases h.covered with hkey | hcovered
        · exact .inl hkey
        · right
          intro i h0 hi hdiff
          by_cases hin : addr ≤ i ∧
              i ≤ addr + s.sender.writeCount addr data.length - 1
          · exact hmarks.nowCovered i hin.1 hin.2 (.inr hdiff)
          · have hkeep := s.sender.store_of_outside addr data
              (show i < addr ∨ addr + s.sender.writeCount addr data.length ≤ i by
                omega)
            rw [hkeep] at hdiff
            exact hmarks.stillCovered i (hcovered i h0 hi hdiff)
      keyframe := by rw [hsame]; exact h.keyframe
      wellFormed := h.wellFormed
      transfer := by rw [hsame]; exact h.transfer
      copied := h.copied }

theorem ReplicationInvariant.synchronize
    {initial : List UInt8} {s : Replication} (h : ReplicationInvariant initial s) :
    ReplicationInvariant initial
      { s with
        sbuf := s.sbuf.synchronize s.sender
        snapshots :=
          if s.sbuf.tookSnapshot (s.sbuf.synchronize s.sender) then
            s.snapshots ++ [s.sender.contents]
          else s.snapshots } := by
  have hordered : s.sbuf.changed.rangeSet = true →
      s.sbuf.changed.startAddr ≤ s.sbuf.changed.endAddr :=
    fun hset => (h.within hset).2.1
  rcases s.sbuf.synchronize_cases s.sender h.hasBuf (fun _ => hordered) with
    ⟨hsame, -⟩ | ⟨hunused, hkey, -, hclean, heq⟩ |
    ⟨hunused, first, last, delta, hrange, hloaded⟩
  · -- Nothing to do, or the synchronization buffer is in use.
    have htook : s.sbuf.tookSnapshot s.sbuf = false := by
      simp [SourceBuffer.tookSnapshot]
    rw [hsame, htook]
    exact h
  · -- The changed range turned out to hold no change.
    have htook : s.sbuf.tookSnapshot (s.sbuf.synchronize s.sender) = false := by
      rw [hclean]
      simp [SourceBuffer.tookSnapshot]
    rw [htook, hclean]
    exact
      { senderSize := h.senderSize
        receiverSize := h.receiverSize
        receiverStatic := h.receiverStatic
        hasBuf := h.hasBuf
        sameData := h.sameData
        oneWay := h.oneWay
        tbufOneWay := h.tbufOneWay
        within := fun hset => by simp at hset
        covered := by
          rcases h.covered with hkey' | hcovered
          · exact .inl hkey'
          · right
            intro i h0 hi hdiff
            exact absurd (heq i (hcovered i h0 hi hdiff)).symm hdiff
        keyframe := h.keyframe
        wellFormed := h.wellFormed
        transfer := h.transfer
        copied := h.copied }
  · -- A snapshot of the whole block is in the synchronization buffer now.
    have hn := h.sameData
    have hsize := h.senderSize
    have hwithin : 0 ≤ first ∧ first ≤ last ∧ last < s.tbuf.syncbuf.ndata := by
      obtain ⟨jobs, completed, shown, hpending, -⟩ := h.transfer
      obtain ⟨t, out, rest, -, -, htransfers⟩ := hpending
      have hpos := htransfers.sizes.pos
      have htn := htransfers.sizes.ndata
      cases hkey : s.sbuf.syncbuf.makeKeyframe with
      | true =>
          have := hrange.keyframe hkey
          omega
      | false =>
          obtain ⟨hset, hlo, hle, hhi, -⟩ := hrange.differences hkey
          have := h.within hset
          omega
    have hloads := SynchronizedSourceBuffer.load_spec
      { s.sbuf.syncbuf with
        delta := delta
        makeKeyframe := false
        isKeyframe := s.sbuf.syncbuf.makeKeyframe } s.sender h.hasBuf hwithin.1
      (show last < s.sbuf.syncbuf.ndata by omega)
    rw [hloaded]
    generalize SynchronizedSourceBuffer.load
      { s.sbuf.syncbuf with
        delta := delta
        makeKeyframe := false
        isKeyframe := s.sbuf.syncbuf.makeKeyframe } s.sender first last =
      sync' at *
    have htook : s.sbuf.tookSnapshot
        { s.sbuf with changed.rangeSet := false, syncbuf := sync' } = true := by
      simp [SourceBuffer.tookSnapshot, hunused, hloads.used]
    rw [htook, if_pos rfl]
    have hwhole : ∀ i, 0 ≤ i → i < s.tbuf.syncbuf.ndata →
        sync'.buf i = s.sender.buf i := by
      intro i h0 hi
      have hbuf := hloads.buf i (show i < s.sbuf.syncbuf.ndata by omega)
      by_cases hin : first ≤ i ∧ i ≤ last
      · rw [hbuf, if_pos hin]
      · rw [hbuf, if_neg hin]
        dsimp only
        cases hkey : s.sbuf.syncbuf.makeKeyframe with
        | true =>
            have := hrange.keyframe hkey
            omega
        | false =>
            by_contra hdiff
            rcases h.covered with hkey' | hcovered
            · rw [hkey'] at hkey
              contradiction
            · have hcov := hcovered i h0 hi (fun heq => hdiff heq.symm)
              exact hdiff ((hrange.differences hkey).2.2.2.2.1 i hcov.2.1
                hcov.2.2 hin)
    exact
      { senderSize := h.senderSize
        receiverSize := h.receiverSize
        receiverStatic := h.receiverStatic
        hasBuf := hloads.hasBuf.trans h.hasBuf
        sameData := hloads.ndata.trans h.sameData
        oneWay := hloads.bidirectional.trans h.oneWay
        tbufOneWay := h.tbufOneWay
        within := fun hset => by simp at hset
        covered := .inr fun i h0 hi hdiff =>
          absurd (hwhole i h0 hi).symm hdiff
        keyframe := by
          have hkey : sync'.makeKeyframe = false := hloads.makeKeyframe
          simp [hkey]
        wellFormed := h.wellFormed
        transfer := by
          obtain ⟨jobs, completed, shown, hpending, hjobs, hcompleted, hle,
            hshown, hresults⟩ := h.transfer
          have hlt : completed < (s.versions initial).length :=
            (List.getElem?_eq_some_iff.mp hcompleted).1
          have hversions : ({ s with
              sbuf := { s.sbuf with changed.rangeSet := false, syncbuf := sync' }
              snapshots := s.snapshots ++ [s.sender.contents] } :
                Replication).versions initial =
              s.versions initial ++ [s.sender.contents] := rfl
          rw [hversions]
          refine ⟨jobs ++ [⟨window s.sbuf.syncbuf.ndata sync'.buf, first, last, fun i =>
            sync'.bidirectional &&
              marksIn sync'.delta s.sbuf.syncbuf.ndata first last i⟩],
            completed, shown, ?_, ?_, ?_, hle, ?_, ?_⟩
          · refine hpending.extend _ fun t rest htransfers => ?_
            obtain ⟨rfl, hidle⟩ := htransfers.idle_of_unused hunused
            have htn := hidle.sizes.ndata
            rw [htn]
            exact .data first _ (hidle.load hrange (by omega) (by omega) hloads)
          · rw [List.map_append, hjobs, List.drop_append_of_le_length (by omega)]
            congr 1
            simp only [List.map_cons, List.map_nil, List.cons.injEq, and_true]
            unfold MemoryBlock.contents
            rw [hsize]
            refine Segment.segment_eq_iff.mpr fun i h0 hi => ?_
            rw [← hwhole i h0 (by omega), window,
              if_pos ⟨h0, by omega⟩]
          · exact History.getElem?_append_of_some hcompleted
          · exact History.getElem?_append_of_some hshown
          · exact hresults.append_version _
        copied := h.copied }

theorem ReplicationInvariant.sendFrame
    {initial : List UInt8} {s : Replication} (h : ReplicationInvariant initial s)
    {con con' : Connection} {sbuf' : SourceBuffer} {frame : Frame}
    (hused : s.sbuf.syncbuf.used = true)
    (hmake : makeDataFrame con s.sender s.sbuf = some (con', sbuf', frame)) :
    ReplicationInvariant initial
      { s with sbuf := sbuf', channel := s.channel ++ [frame] } := by
  obtain ⟨count, hsbuf⟩ := makeDataFrame_sbuf hmake
  obtain ⟨hbuf, hhas, hndata, hbidir, hkey⟩ :=
    s.sbuf.syncbuf.advance_rest count
  have hsync : sbuf'.syncbuf = s.sbuf.syncbuf.advance count := by rw [hsbuf]
  have hchanged : sbuf'.changed = s.sbuf.changed := by rw [hsbuf]
  exact
    { senderSize := h.senderSize
      receiverSize := h.receiverSize
      receiverStatic := h.receiverStatic
      hasBuf := by rw [hsync, hhas]; exact h.hasBuf
      sameData := by rw [hsync, hndata]; exact h.sameData
      oneWay := by rw [hsync, hbidir]; exact h.oneWay
      tbufOneWay := h.tbufOneWay
      within := by rw [hchanged]; exact h.within
      covered := by rw [hsync, hchanged, hkey, hbuf]; exact h.covered
      keyframe := by rw [hsync, hkey]; exact h.keyframe
      wellFormed := h.wellFormed
      transfer := by
        obtain ⟨jobs, completed, shown, hpending, hrest⟩ := h.transfer
        refine ⟨jobs, completed, shown, ?_, hrest⟩
        exact hpending.send fun t rest htransfers =>
          htransfers.send hused hmake
      copied := h.copied }

theorem ReplicationInvariant.deliver
    {initial : List UInt8} {s : Replication} (h : ReplicationInvariant initial s)
    {frame : Frame} {rest : List Frame} (hchannel : s.channel = frame :: rest) :
    (s.tbuf.storeFrame frame).1 = true ∧
      ReplicationInvariant initial
        { s with channel := rest, tbuf := (s.tbuf.storeFrame frame).2 } := by
  obtain ⟨jobs, completed, shown, hpending, hjobs, hcompleted, hle, hshown,
    hresults⟩ := h.transfer
  rw [hchannel] at hpending
  obtain ⟨c', out, later, haccept, rfl, hpending'⟩ := hpending.deliver
  obtain ⟨hok, -, -, hincoming, hstores⟩ :=
    TargetBuffer.storeFrame_spec h.wellFormed haccept
  obtain ⟨hndata', hbidir'⟩ := Incoming.store_sizes haccept
  generalize (s.tbuf.storeFrame frame).2 = tbuf' at *
  have hndata : tbuf'.syncbuf.ndata = s.tbuf.syncbuf.ndata := by
    have : tbuf'.syncbuf.incoming.ndata = s.tbuf.syncbuf.incoming.ndata := by
      rw [hincoming, hndata']
    exact this
  have hbidir : tbuf'.syncbuf.bidirectional = s.tbuf.syncbuf.bidirectional := by
    have : tbuf'.syncbuf.incoming.bidirectional =
        s.tbuf.syncbuf.incoming.bidirectional := by
      rw [hincoming, hbidir']
    exact this
  have hrebuild : tbuf'.syncbuf.WellFormed →
      (∀ i, 0 ≤ i → i < s.tbuf.syncbuf.ndata → ¬tbuf'.syncbuf.Pending i →
        s.receiver.buf i = tbuf'.syncbuf.buf i) →
      (∃ (jobs : List Snapshot) (completed shown : ℕ),
        OrderedChannel.Pending Incoming.accept Transfers c' rest jobs
            s.sbuf.syncbuf ∧
          jobs.map (fun job =>
              Segment.segment job.data 0 s.tbuf.syncbuf.ndata.toNat) =
            (s.versions initial).drop (completed + 1) ∧
          (s.versions initial)[completed]? =
            some (Segment.segment tbuf'.syncbuf.buf 0
              s.tbuf.syncbuf.ndata.toNat) ∧
          shown ≤ completed ∧
          (s.versions initial)[shown]? = some s.receiver.contents ∧
          OrderedResults (s.versions initial) s.results shown) →
      ReplicationInvariant initial { s with channel := rest, tbuf := tbuf' } := by
    intro hwf hcopied htransfer
    exact
      { senderSize := h.senderSize.trans hndata.symm
        receiverSize := h.receiverSize.trans hndata.symm
        receiverStatic := h.receiverStatic
        hasBuf := h.hasBuf
        sameData := h.sameData.trans hndata.symm
        oneWay := h.oneWay
        tbufOneWay := hbidir.trans h.tbufOneWay
        within := by dsimp only; rw [hndata]; exact h.within
        covered := by dsimp only; rw [hndata]; exact h.covered
        keyframe := h.keyframe
        wellFormed := hwf
        transfer := by dsimp only; rw [hndata, hincoming]; exact htransfer
        copied := by dsimp only; rw [hndata]; exact hcopied }
  refine ⟨hok, ?_⟩
  cases hstores with
  | fresh hbuf hpend hwf =>
      refine hrebuild hwf ?_ ⟨later, completed, shown, hpending', hjobs, ?_, hle,
        hshown, hresults⟩
      · intro i h0 hi hidle
        rw [hbuf]
        exact h.copied i h0 hi (fun hp => hidle ((hpend i).mpr hp))
      · rw [hbuf]
        exact hcompleted
  | complete marked hbuf hpend hsizes hnew hcompletes hwf =>
      have hdata : ∀ i, 0 ≤ i → i < s.tbuf.syncbuf.ndata →
          tbuf'.syncbuf.buf i = marked.newdata i := by
        intro i h0 hi
        rw [← hcompletes.newdata]
        refine hcompletes.wellFormed.copied i h0 (by omega) fun hfresh => ?_
        rw [SynchronizedTargetBuffer.Fresh, hcompletes.finished] at hfresh
        exact absurd hfresh.1 (by simp)
      simp only [List.cons_append, List.nil_append, List.map_cons] at hjobs
      have hlt : completed + 1 < (s.versions initial).length := by
        by_contra hge
        rw [List.drop_eq_nil_of_le (by omega)] at hjobs
        exact List.cons_ne_nil _ _ hjobs
      rw [List.drop_eq_getElem_cons hlt] at hjobs
      simp only [List.cons.injEq] at hjobs
      refine hrebuild hcompletes.wellFormed ?_ ⟨later, completed + 1, shown,
        hpending', hjobs.2, ?_, by omega, hshown, hresults⟩
      · intro i h0 hi hidle
        have hold : ¬s.tbuf.syncbuf.Pending i := fun hp =>
          hidle (hcompletes.stillPending i ((hpend i).mpr hp))
        have hsame : marked.buf i = marked.newdata i := by
          by_contra hdiff
          by_cases hfresh : marked.Fresh i
          · exact hidle (hcompletes.nowPending i hfresh (.inr hdiff))
          · exact hdiff (hwf.copied i h0 (by omega) hfresh)
        rw [h.copied i h0 hi hold, hdata i h0 hi, ← hsame, hbuf]
      · rw [List.getElem?_eq_getElem hlt, ← hjobs.1]
        refine congrArg some (Segment.segment_eq_iff.mpr fun i h0 hi => ?_)
        rw [hdata i h0 (by omega)]
        change window marked.ndata marked.newdata i = _
        rw [window, if_pos ⟨h0, by omega⟩]

theorem ReplicationInvariant.receive
    {initial : List UInt8} {s : Replication} (h : ReplicationInvariant initial s)
    {receiver' : MemoryBlock} {tbuf' : TargetBuffer}
    (hreceive : receive s.receiver [] [s.tbuf] = (receiver', [], [tbuf'])) :
    ReplicationInvariant initial
      { s with
        receiver := receiver'
        tbuf := tbuf'
        results := s.results ++ [(s.snapshots.length, receiver'.contents)] } := by
  have hsize := h.receiverSize
  -- After the call the block agrees with the synchronized buffer everywhere.
  have hafter : tbuf'.syncbuf.incoming = s.tbuf.syncbuf.incoming ∧
      tbuf'.syncbuf.buf = s.tbuf.syncbuf.buf ∧
      tbuf'.syncbuf.bufUsed = false ∧
      receiver'.nbytes = s.receiver.nbytes ∧
      receiver'.flags = s.receiver.flags ∧
      ∀ i, 0 ≤ i → i < s.tbuf.syncbuf.ndata →
        receiver'.buf i = s.tbuf.syncbuf.buf i := by
    simp only [Iocom.receive, h.receiverStatic, Bool.false_eq_true, if_false,
      receiveTargetBuffer] at hreceive
    cases hused : s.tbuf.syncbuf.bufUsed with
    | false =>
        simp only [hused, Bool.false_eq_true, if_false, Prod.mk.injEq,
          List.cons.injEq, and_true, true_and] at hreceive
        obtain ⟨rfl, rfl⟩ := hreceive
        refine ⟨rfl, rfl, hused, rfl, rfl, fun i h0 hi => ?_⟩
        exact h.copied i h0 hi fun hp => by simp [hp.1] at hused
    | true =>
        simp only [hused, if_true, List.map_nil, Prod.mk.injEq, List.cons.injEq,
          and_true, true_and] at hreceive
        obtain ⟨rfl, rfl⟩ := hreceive
        refine ⟨rfl, ?_, rfl, rfl, rfl, fun i h0 hi => ?_⟩
        · simp [SynchronizedTargetBuffer.finishReceive, h.tbufOneWay]
        · simp only [MemoryBlock.copyReceived, h.tbufOneWay, Bool.false_eq_true,
            if_false, Segment.copyRange_apply]
          split
          · rfl
          · rename_i hout
            exact h.copied i h0 hi fun hp => hout hp.2
  obtain ⟨hincoming, hbuf, hidle, hnbytes, hflags, hequal⟩ := hafter
  have hndata : tbuf'.syncbuf.ndata = s.tbuf.syncbuf.ndata :=
    congrArg Incoming.ndata hincoming
  have hbidir : tbuf'.syncbuf.bidirectional = s.tbuf.syncbuf.bidirectional :=
    congrArg Incoming.bidirectional hincoming
  have hnew : tbuf'.syncbuf.hasNewData = s.tbuf.syncbuf.hasNewData :=
    congrArg Incoming.hasNewData hincoming
  have hstart : tbuf'.syncbuf.newdataStartAddr = s.tbuf.syncbuf.newdataStartAddr :=
    congrArg Incoming.newStart hincoming
  have hend : tbuf'.syncbuf.newdataEndAddr = s.tbuf.syncbuf.newdataEndAddr :=
    congrArg Incoming.newEnd hincoming
  have hnewdata : tbuf'.syncbuf.newdata = s.tbuf.syncbuf.newdata :=
    congrArg Incoming.newdata hincoming
  have hwf := h.wellFormed
  exact
    { senderSize := h.senderSize.trans hndata.symm
      receiverSize := by dsimp only; omega
      receiverStatic := by dsimp only; rw [hflags]; exact h.receiverStatic
      hasBuf := h.hasBuf
      sameData := h.sameData.trans hndata.symm
      oneWay := h.oneWay
      tbufOneWay := hbidir.trans h.tbufOneWay
      within := by dsimp only; rw [hndata]; exact h.within
      covered := by dsimp only; rw [hndata]; exact h.covered
      keyframe := h.keyframe
      wellFormed :=
        { newRange := by rw [hnew, hstart, hend, hndata]; exact hwf.newRange
          bufRange := fun hused => by simp [hidle] at hused
          copied := by
            intro i h0 hi hfresh
            rw [hbuf, hnewdata]
            refine hwf.copied i h0 (lt_of_lt_of_eq hi hndata) fun hf => hfresh ?_
            rw [SynchronizedTargetBuffer.Fresh, hnew, hstart, hend]
            exact hf }
      transfer := by
        obtain ⟨jobs, completed, shown, hpending, hjobs, hcompleted, hle, hshown,
          hresults⟩ := h.transfer
        dsimp only
        rw [hincoming, hndata, hbuf]
        have hcontents : receiver'.contents =
            Segment.segment s.tbuf.syncbuf.buf 0 s.tbuf.syncbuf.ndata.toNat := by
          unfold MemoryBlock.contents
          rw [hnbytes, hsize]
          exact Segment.segment_eq_iff.mpr fun i h0 hi =>
            hequal i h0 (by omega)
        have hlt : completed < (s.versions initial).length :=
          (List.getElem?_eq_some_iff.mp hcompleted).1
        refine ⟨jobs, completed, completed, hpending, hjobs, hcompleted, le_rfl,
          ?_, ?_⟩
        · rw [hcontents]
          exact hcompleted
        · refine hresults.append_result hle ?_ (by rw [hcontents]; exact hcompleted)
          simp only [Replication.versions, List.length_cons] at hlt
          omega
      copied := fun i h0 hi _ => by
        dsimp only
        rw [hbuf]
        exact hequal i h0 (by dsimp only at hi; omega) }

theorem ReplicationInvariant.step
    {initial : List UInt8} {s t : Replication} (h : ReplicationInvariant initial s)
    (hstep : ReplicationStep s t) : ReplicationInvariant initial t := by
  cases hstep with
  | write addr data sender' sbuf' haddr hdata hwrite =>
      exact h.write haddr hdata hwrite
  | synchronize => exact h.synchronize
  | cancelFrame con hused hcancel => exact h
  | sendFrame con con' sbuf' frame hused hheader hmake =>
      exact h.sendFrame hused hmake
  | deliver frame rest hchannel => exact (h.deliver hchannel).2
  | receive receiver' tbuf' hreceive => exact h.receive hreceive

theorem ReplicationStart.run_invariant
    {s₀ s : Replication} (hstart : ReplicationStart s₀)
    (hrun : Relation.ReflTransGen ReplicationStep s₀ s) :
    ReplicationInvariant s₀.receiver.contents s :=
  TransitionSystem.invariant_of_run _ (fun _ _ h hstep => h.step hstep)
    hstart.invariant hrun

/-! ## Consistency of the replica -/

/-- What replication promises for one state: `initial` is what the receiver's
block held at the beginning. -/
structure SnapshotConsistent (initial : List UInt8) (s : Replication) : Prop where
  /-- The receiver shows one whole snapshot, or what it held at first. -/
  whole : s.receiver.contents = initial ∨ s.receiver.contents ∈ s.snapshots
  /-- The results of the receives never go back: they are versions with
  increasing indexes, each of a snapshot taken before the receive. -/
  ordered :
    ∃ indexes : List ℕ, indexes.Pairwise (· ≤ ·) ∧
      List.Forall₂
        (fun result k =>
          k ≤ result.1 ∧ (s.versions initial)[k]? = some result.2)
        s.results indexes
  /-- Once everything has been sent and delivered, the synchronized buffer of
  the receiver holds the last snapshot, as does that of the sender. -/
  drained :
    s.sbuf.syncbuf.used = false → s.channel = [] →
      (s.versions initial).getLast? =
          some (Segment.segment s.tbuf.syncbuf.buf 0 s.receiver.nbytes.toNat) ∧
        (s.snapshots ≠ [] →
          ∀ i, 0 ≤ i → i < s.receiver.nbytes →
            s.tbuf.syncbuf.buf i = s.sbuf.syncbuf.buf i)
  /-- No frame is ever rejected. -/
  accepted :
    ∀ frame rest, s.channel = frame :: rest → (s.tbuf.storeFrame frame).1 = true

theorem ReplicationInvariant.whole
    {initial : List UInt8} {s : Replication} (h : ReplicationInvariant initial s) :
    s.receiver.contents = initial ∨ s.receiver.contents ∈ s.snapshots := by
  obtain ⟨jobs, completed, shown, -, -, -, -, hshown, -⟩ := h.transfer
  have hmem := List.mem_of_getElem? hshown
  simpa [Replication.versions] using hmem

theorem ReplicationInvariant.drained
    {initial : List UInt8} {s : Replication} (h : ReplicationInvariant initial s)
    (hunused : s.sbuf.syncbuf.used = false) (hchannel : s.channel = []) :
    (s.versions initial).getLast? =
        some (Segment.segment s.tbuf.syncbuf.buf 0 s.receiver.nbytes.toNat) ∧
      (s.snapshots ≠ [] →
        ∀ i, 0 ≤ i → i < s.receiver.nbytes →
          s.tbuf.syncbuf.buf i = s.sbuf.syncbuf.buf i) := by
  obtain ⟨jobs, completed, shown, hpending, hjobs, hcompleted, -⟩ := h.transfer
  rw [hchannel] at hpending
  obtain ⟨rfl, hidle⟩ := hpending.of_empty.idle_of_unused hunused
  have hlt : completed < (s.versions initial).length :=
    (List.getElem?_eq_some_iff.mp hcompleted).1
  have hlast : completed = (s.versions initial).length - 1 := by
    have hlen := congrArg List.length hjobs
    simp only [List.map_nil, List.length_nil, List.length_drop] at hlen
    omega
  rw [h.receiverSize]
  constructor
  · rw [List.getLast?_eq_getElem?, ← hlast, hcompleted]
  · intro hsome i h0 hi
    have hkey : ¬s.sbuf.syncbuf.makeKeyframe = true := by
      rw [h.keyframe]
      exact hsome
    rcases hidle.equal with hkey' | heq
    · exact absurd hkey' hkey
    · rw [h.wellFormed.copied i h0 hi fun hfresh => ?_]
      · exact heq i h0 hi
      · have hfinished : s.tbuf.syncbuf.hasNewData = false := hidle.finished
        rw [SynchronizedTargetBuffer.Fresh, hfinished] at hfresh
        exact absurd hfresh.1 (by simp)

/-- A block for which no data waits shows what its target buffer holds. -/
theorem ReplicationInvariant.contents_eq
    {initial : List UInt8} {s : Replication} (h : ReplicationInvariant initial s)
    (hreceived : s.tbuf.syncbuf.bufUsed = false) :
    s.receiver.contents =
      Segment.segment s.tbuf.syncbuf.buf 0 s.receiver.nbytes.toNat := by
  have hsize := h.receiverSize
  apply Segment.segment_eq_iff.mpr
  intro i h0 hi
  refine h.copied i h0 (by omega) fun hpending => ?_
  have hused := hpending.1
  rw [hreceived] at hused
  cases hused

/-- Snapshot replication: in every run of a newly made one-way link, every
state is consistent. -/
theorem snapshot_replication
    {s₀ s : Replication} (hstart : ReplicationStart s₀)
    (hrun : Relation.ReflTransGen ReplicationStep s₀ s) :
    SnapshotConsistent s₀.receiver.contents s := by
  have h := hstart.run_invariant hrun
  exact
    { whole := h.whole
      ordered := by
        obtain ⟨_, _, _, _, _, _, _, _, indexes, hsorted, _, hall⟩ := h.transfer
        exact ⟨indexes, hsorted, hall⟩
      drained := h.drained
      accepted := fun frame rest hchannel => (h.deliver hchannel).1 }

def twoByteLink : Replication :=
  let flags : MblkFlags := ⟨false, true, false, false, false⟩
  let sender : MemoryBlock := ⟨10, flags, 2, true, fun _ => 7⟩
  let receiver : MemoryBlock := ⟨11, flags, 2, true, fun _ => 0⟩
  { sender := sender
    sbuf := initializeSourceBuffer ⟨0, true⟩ sender 11 false
    channel := []
    tbuf := initializeTargetBuffer ⟨0, false⟩ receiver 10 false
    receiver := receiver
    snapshots := []
    results := [] }

theorem twoByteLink_start : ReplicationStart twoByteLink where
  size := by decide
  sameSize := rfl
  senderStatic := rfl
  receiverStatic := rfl
  sbuf := ⟨_, _, rfl⟩
  tbuf := ⟨_, _, rfl⟩
  channel := rfl
  snapshots := rfl
  results := rfl

inductive ReplicationAction
  | write (addr : ℤ) (data : List UInt8)
  | synchronize
  | sendFrame (con : Connection)
  | deliver
  | receive

def Replication.play (s : Replication) : ReplicationAction → Option Replication
  | .write addr data =>
      match write s.sender [s.sbuf] addr data with
      | (sender', [sbuf']) =>
          if 0 ≤ addr ∧ data ≠ [] then some { s with sender := sender', sbuf := sbuf' } else none
      | _ => none
  | .synchronize =>
      some
        { s with
          sbuf := s.sbuf.synchronize s.sender
          snapshots :=
            if s.sbuf.tookSnapshot (s.sbuf.synchronize s.sender) then
              s.snapshots ++ [s.sender.contents]
            else s.snapshots }
  | .sendFrame con =>
      match makeDataFrame con s.sender s.sbuf with
      | some (_, sbuf', frame) =>
          if s.sbuf.syncbuf.used = true ∧
              headerSize con.isSocket (osUint s.sbuf.remoteMblkId)
                (osUint s.sbuf.syncbuf.startAddr) ≤ con.dstFrameSz then
            some { s with sbuf := sbuf', channel := s.channel ++ [frame] }
          else none
      | none => none
  | .deliver =>
      match s.channel with
      | frame :: rest =>
          some { s with channel := rest, tbuf := (s.tbuf.storeFrame frame).2 }
      | [] => none
  | .receive =>
      match receive s.receiver [] [s.tbuf] with
      | (receiver', [], [tbuf']) =>
          some
            { s with
              receiver := receiver'
              tbuf := tbuf'
              results := s.results ++ [(s.snapshots.length, receiver'.contents)] }
      | _ => none

theorem Replication.play_step {s t : Replication} {action : ReplicationAction}
    (h : s.play action = some t) : ReplicationStep s t := by
  cases action with
  | write addr data =>
      unfold Replication.play at h
      dsimp only at h
      split at h
      next sender' sbuf' hwrite =>
        split_ifs at h with hvalid
        obtain rfl := Option.some.inj h
        exact .write s addr data sender' sbuf' hvalid.1 hvalid.2 hwrite
      · cases h
  | synchronize =>
      obtain rfl := Option.some.inj h
      exact .synchronize s
  | sendFrame con =>
      unfold Replication.play at h
      dsimp only at h
      split at h
      next con' sbuf' frame hmake =>
        split_ifs at h with hready
        obtain rfl := Option.some.inj h
        exact .sendFrame s con con' sbuf' frame hready.1 hready.2 hmake
      · cases h
  | deliver =>
      unfold Replication.play at h
      dsimp only at h
      split at h
      next frame rest hchannel =>
        obtain rfl := Option.some.inj h
        exact .deliver s frame rest hchannel
      · cases h
  | receive =>
      unfold Replication.play at h
      dsimp only at h
      split at h
      next receiver' tbuf' hreceive =>
        obtain rfl := Option.some.inj h
        exact .receive s receiver' tbuf' hreceive
      · cases h

/-- The first snapshot goes in two frames, with a write and a receive between them; the second
one goes in a single frame. -/
def twoByteSnapshots : List ReplicationAction :=
  [.synchronize, .sendFrame (serialSender 8), .write 1 [9], .sendFrame (serialSender 8), .deliver,
    .receive, .deliver, .receive, .synchronize, .sendFrame (serialSender 16), .deliver, .receive]

theorem snapshot_replication_twoByteLink :
    ∃ s, twoByteSnapshots.foldlM Replication.play twoByteLink = some s ∧
      s.results = [(1, [0, 0]), (1, [7, 7]), (2, [7, 9])] ∧ SnapshotConsistent [0, 0] s := by
  obtain ⟨s, hs, hresults⟩ : ∃ s, twoByteSnapshots.foldlM Replication.play twoByteLink = some s ∧
      s.results = [(1, [0, 0]), (1, [7, 7]), (2, [7, 9])] :=
    Option.map_eq_some_iff.mp (by decide)
  exact ⟨s, hs, hresults, snapshot_replication twoByteLink_start
    (TransitionSystem.run_of_play (fun _ _ _ => Replication.play_step) hs)⟩

end Iocom
