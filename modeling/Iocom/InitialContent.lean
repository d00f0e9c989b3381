import Iocom.BidirectionalConvergence
import Iocom.SnapshotReplication

/-!
# Initial content of a bidirectional block

A controller and a device have just linked a block in both directions.  The
device starts with a key frame of its copy, and the controller has preset all
change bits of the new data to take the key frame over as a whole; but the
change bits which the device sends after its data are stored over the preset
ones.
-/

namespace Iocom

open EchoExchange (Side)

/-- A new link, with its history: the bytes which the application has written
on the controller, and the device's copy and change bits when it has taken a
snapshot. -/
structure FirstTransfer where
  link : BidirectionalLink
  written : ℤ → Bool
  snapshots : List (Mem × (ℤ → Bool))

abbrev FirstTransfer.controller (s : FirstTransfer) : BidirectionalEnd := s.link.ends .plain

abbrev FirstTransfer.device (s : FirstTransfer) : BidirectionalEnd := s.link.ends .echoing

inductive FirstTransferStep : FirstTransfer → FirstTransfer → Prop
  | write (s : FirstTransfer) (side : Side) (addr : ℤ) (data : List UInt8)
      (mblk' : MemoryBlock) (sbuf' : SourceBuffer) (haddr : 0 ≤ addr) (hdata : data ≠ [])
      (hwrite : write (s.link.ends side).mblk [(s.link.ends side).sbuf] addr data =
        (mblk', [sbuf'])) :
      FirstTransferStep s
        { s with
          link.ends := Function.update s.link.ends side
            { s.link.ends side with mblk := mblk', sbuf := sbuf' }
          written := fun i =>
            s.written i ||
              decide (side = .plain ∧ addr ≤ i ∧
                i < addr + (s.link.ends side).mblk.writeCount addr data.length) }
  | send (s : FirstTransfer) (side : Side) (sbuf' : SourceBuffer)
      (hsend : send (s.link.ends side).mblk [(s.link.ends side).sbuf] = [sbuf']) :
      FirstTransferStep s
        { s with
          link.ends := Function.update s.link.ends side
            { s.link.ends side with sbuf := sbuf' }
          snapshots :=
            if side = .echoing ∧ s.device.sbuf.tookSnapshot sbuf' = true then
              s.snapshots ++ [(s.device.mblk.buf,
                changeBit s.device.sbuf.syncbuf.buf s.device.sbuf.syncbuf.ndata)]
            else s.snapshots }
  | sendFrame (s : FirstTransfer) (side : Side) (con con' : Connection)
      (sbuf' : SourceBuffer) (frame : Frame)
      (hused : (s.link.ends side).sbuf.syncbuf.used = true)
      (hheader :
        headerSize con.isSocket (osUint (s.link.ends side).sbuf.remoteMblkId)
          (osUint (s.link.ends side).sbuf.syncbuf.startAddr) ≤ con.dstFrameSz)
      (hmake : makeDataFrame con (s.link.ends side).mblk (s.link.ends side).sbuf =
        some (con', sbuf', frame)) :
      FirstTransferStep s
        { s with
          link :=
            { ends := Function.update s.link.ends side
                { s.link.ends side with sbuf := sbuf' }
              channel := Function.update s.link.channel side
                (s.link.channel side ++ [frame]) } }
  | deliver (s : FirstTransfer) (side : Side) (frame : Frame) (rest : List Frame)
      (hchannel : s.link.channel side = frame :: rest) :
      FirstTransferStep s
        { s with
          link :=
            { ends := Function.update s.link.ends side.other
                { s.link.ends side.other with
                  tbuf := ((s.link.ends side.other).tbuf.storeFrame frame).2 }
              channel := Function.update s.link.channel side rest } }
  | receive (s : FirstTransfer) (side : Side) (mblk' : MemoryBlock)
      (sbuf' : SourceBuffer) (tbuf' : TargetBuffer)
      (hreceive : receive (s.link.ends side).mblk [(s.link.ends side).sbuf]
        [(s.link.ends side).tbuf] = (mblk', [sbuf'], [tbuf'])) :
      FirstTransferStep s
        { s with link.ends := Function.update s.link.ends side ⟨mblk', sbuf', tbuf'⟩ }

/-- A controller and a device have linked blocks of `n` bytes: their buffers
are newly initialized. -/
structure FirstTransferStart (n : ℤ) (s : FirstTransfer) : Prop where
  size : 1 ≤ n ∧ transferBytes n true < 0x80000000
  blocks : ∀ side, (s.link.ends side).mblk.nbytes = n ∧
    (s.link.ends side).mblk.flags.static = false
  down : s.controller.mblk.flags.down = true
  buffers : ∀ side, ∃ con remoteMblkId,
    con.connectUp = decide (side = .echoing) ∧
      (s.link.ends side).sbuf =
        initializeSourceBuffer con (s.link.ends side).mblk remoteMblkId true ∧
      (s.link.ends side).tbuf =
        initializeTargetBuffer con (s.link.ends side).mblk remoteMblkId true
  channel : ∀ side, s.link.channel side = []
  written : ∀ i, s.written i = false
  snapshots : s.snapshots = []

/-! ## Phases of the first snapshot -/

/-- The frames on their way to the controller and what the device is sending
bring these snapshots to the controller. -/
def FirstTransfer.Brings (s : FirstTransfer) (jobs : List Snapshot) : Prop :=
  OrderedChannel.Pending Incoming.accept Transfers s.controller.tbuf.syncbuf.incoming
    (s.link.channel .echoing) jobs s.device.sbuf.syncbuf

def FirstTransfer.Untouched (n : ℤ) (initial : Mem) (s : FirstTransfer) : Prop :=
  ∀ i, 0 ≤ i → i < n →
    changeBit s.controller.tbuf.syncbuf.buf n i = false ∧
      (s.written i = false → s.controller.mblk.buf i = initial i)

/-- The first snapshot has arrived: a byte which is not written on the
controller is going to be taken over if it is marked, or it has been. -/
def FirstTransfer.Arrived (n : ℤ) (initial copy : Mem) (marks : ℤ → Bool)
    (s : FirstTransfer) : Prop :=
  ∀ i, 0 ≤ i → i < n → s.written i = false →
    changeBit s.controller.tbuf.syncbuf.buf n i = marks i ∧
        (marks i = true → s.controller.tbuf.syncbuf.buf i = copy i) ∧
        s.controller.mblk.buf i = initial i ∨
      changeBit s.controller.tbuf.syncbuf.buf n i = false ∧
        s.controller.mblk.buf i = if marks i then copy i else initial i

inductive FirstTransfer.Phase (n : ℤ) (initial : Mem) (s : FirstTransfer) : Prop
  | before (hsnapshots : s.snapshots = [])
      (hkeyframe : s.device.sbuf.syncbuf.makeKeyframe = true)
      (hunused : s.device.sbuf.syncbuf.used = false)
      (hchannel : s.link.channel .echoing = [])
      (huntouched : s.Untouched n initial)
  | sending (copy : Mem) (marks : ℤ → Bool) (job : Snapshot)
      (hsnapshots : s.snapshots = [(copy, marks)])
      (hdata : ∀ i, 0 ≤ i → i < n → job.data i = copy i)
      (hmarks : ∀ i, 0 ≤ i → i < n → job.marks i = marks i)
      (hbrings : s.Brings [job])
      (huntouched : s.Untouched n initial)
  | arrived (copy : Mem) (marks : ℤ → Bool)
      (hsnapshots : s.snapshots = [(copy, marks)])
      (hbrings : s.Brings [])
      (harrived : s.Arrived n initial copy marks)
  | later (hsnapshots : 2 ≤ s.snapshots.length)

structure FirstTransfer.Invariant (n : ℤ) (initial : Mem) (s : FirstTransfer) : Prop where
  ends : ∀ side, (s.link.ends side).Invariant n side
  flow : ∃ jobs, s.link.Flow jobs
  phase : s.Phase n initial

section Phase

variable {n : ℤ} {initial : Mem} {s t : FirstTransfer}

/-- A step which neither sends anything from the device nor changes what the
controller has received. -/
theorem FirstTransfer.Phase.frame (h : s.Phase n initial)
    (hsnapshots : t.snapshots = s.snapshots)
    (hkeyframe : t.device.sbuf.syncbuf.makeKeyframe = s.device.sbuf.syncbuf.makeKeyframe)
    (hused : t.device.sbuf.syncbuf.used = s.device.sbuf.syncbuf.used)
    (htransfers : ∀ c jobs, Transfers c jobs s.device.sbuf.syncbuf →
      Transfers c jobs t.device.sbuf.syncbuf)
    (hchannel : t.link.channel .echoing = s.link.channel .echoing)
    (htbuf : t.controller.tbuf = s.controller.tbuf)
    (hbytes : ∀ i, 0 ≤ i → i < n → t.written i = false →
      s.written i = false ∧ t.controller.mblk.buf i = s.controller.mblk.buf i) :
    t.Phase n initial := by
  have hbrings : ∀ jobs, s.Brings jobs → t.Brings jobs := by
    intro jobs h
    unfold FirstTransfer.Brings
    rw [htbuf, hchannel]
    exact h.mono fun c rest => htransfers c rest
  have huntouched : s.Untouched n initial → t.Untouched n initial := by
    intro h i h0 hi
    obtain ⟨hbit, hbyte⟩ := h i h0 hi
    rw [htbuf]
    refine ⟨hbit, fun hwritten => ?_⟩
    obtain ⟨hbefore, hsame⟩ := hbytes i h0 hi hwritten
    rw [hsame, hbyte hbefore]
  cases h with
  | before hnone hkey hunused hempty hun =>
      apply FirstTransfer.Phase.before
      · rw [hsnapshots, hnone]
      · rw [hkeyframe, hkey]
      · rw [hused, hunused]
      · rw [hchannel, hempty]
      · exact huntouched hun
  | sending copy marks job hone hdata hmarks hb hun =>
      exact .sending copy marks job (hsnapshots.trans hone) hdata hmarks (hbrings _ hb)
        (huntouched hun)
  | arrived copy marks hone hb harrived =>
      apply FirstTransfer.Phase.arrived copy marks (hsnapshots.trans hone) (hbrings _ hb)
      intro i h0 hi hwritten
      obtain ⟨hbefore, hsame⟩ := hbytes i h0 hi hwritten
      rw [htbuf, hsame]
      exact harrived i h0 hi hbefore
  | later hmany =>
      apply FirstTransfer.Phase.later
      rw [hsnapshots]
      exact hmany

/-- A step which leaves both ends as they are, but for the source buffer of the
controller and the target buffer of the device. -/
theorem FirstTransfer.Phase.of_link (h : s.Phase n initial) {link : BidirectionalLink}
    (hmblk : (link.ends .plain).mblk = (s.link.ends .plain).mblk)
    (htbuf : (link.ends .plain).tbuf = (s.link.ends .plain).tbuf)
    (hdevice : (link.ends .echoing).sbuf = (s.link.ends .echoing).sbuf)
    (hchannel : link.channel .echoing = s.link.channel .echoing) :
    FirstTransfer.Phase n initial { s with link := link } := by
  apply h.frame
  case hsnapshots => rfl
  case hkeyframe => exact congrArg (fun sbuf => sbuf.syncbuf.makeKeyframe) hdevice
  case hused => exact congrArg (fun sbuf => sbuf.syncbuf.used) hdevice
  case htransfers =>
    intro c jobs htransfers
    change Transfers c jobs (link.ends .echoing).sbuf.syncbuf
    rw [hdevice]
    exact htransfers
  case hchannel => exact hchannel
  case htbuf => exact htbuf
  case hbytes => exact fun i _ _ hwritten => ⟨hwritten, congrArg (fun m => m.buf i) hmblk⟩

/-- A step of the device which marks bytes of its source buffer. -/
theorem FirstTransfer.Phase.deviceMarks (h : s.Phase n initial) {mblk' : MemoryBlock}
    {sbuf' : SourceBuffer} {tbuf' : TargetBuffer} {p : ℤ → Bool}
    (hmarks : s.device.sbuf.MarksWhere sbuf' n p) {written : ℤ → Bool}
    (hwritten : ∀ i, written i = s.written i) :
    FirstTransfer.Phase n initial
      { s with
        link.ends := Function.update s.link.ends .echoing ⟨mblk', sbuf', tbuf'⟩
        written := written } := by
  have hdevice : Function.update s.link.ends .echoing ⟨mblk', sbuf', tbuf'⟩ .echoing =
      ⟨mblk', sbuf', tbuf'⟩ := Function.update_self _ _ _
  have hcontroller : Function.update s.link.ends .echoing ⟨mblk', sbuf', tbuf'⟩ .plain =
      s.link.ends .plain := Function.update_of_ne (by decide) _ _
  apply h.frame
  case hsnapshots => rfl
  case hkeyframe =>
    unfold FirstTransfer.device
    dsimp only
    rw [hdevice, hmarks.syncbuf]
  case hused =>
    unfold FirstTransfer.device
    dsimp only
    rw [hdevice, hmarks.syncbuf]
  case htransfers =>
    unfold FirstTransfer.device
    dsimp only
    rw [hdevice]
    exact hmarks.transfers
  case hchannel => rfl
  case htbuf => exact congrArg BidirectionalEnd.tbuf hcontroller
  case hbytes =>
    intro i _ _ hnot
    refine ⟨(hwritten i).symm.trans hnot, ?_⟩
    exact congrArg (fun e => e.mblk.buf i) hcontroller

theorem FirstTransfer.Phase.write (h : s.Phase n initial)
    (hends : ∀ side, (s.link.ends side).Invariant n side) {side : Side} {addr : ℤ}
    {data : List UInt8} {mblk' : MemoryBlock} {sbuf' : SourceBuffer}
    (haddr : 0 ≤ addr) (hdata : data ≠ [])
    (hwrite : Iocom.write (s.link.ends side).mblk [(s.link.ends side).sbuf] addr data =
      (mblk', [sbuf'])) :
    FirstTransfer.Phase n initial
      { s with
        link.ends := Function.update s.link.ends side
          { s.link.ends side with mblk := mblk', sbuf := sbuf' }
        written := fun i =>
          s.written i ||
            decide (side = .plain ∧ addr ≤ i ∧
              i < addr + (s.link.ends side).mblk.writeCount addr data.length) } := by
  have he := hends side
  have hlen : 0 < data.length := List.length_pos_iff.mpr hdata
  have hsize := he.size
  unfold Iocom.write at hwrite
  cases side with
  | plain =>
      have hbytes : ∀ i, 0 ≤ i → i < n →
          (s.written i || decide (Side.plain = .plain ∧ addr ≤ i ∧
            i < addr + (s.link.ends .plain).mblk.writeCount addr data.length)) = false →
          s.written i = false ∧ mblk'.buf i = (s.link.ends .plain).mblk.buf i := by
        intro i _ hi hnot
        rw [Bool.or_eq_false_iff, decide_eq_false_iff_not] at hnot
        refine ⟨hnot.1, ?_⟩
        split_ifs at hwrite
        · obtain ⟨rfl, -⟩ := Prod.mk.inj hwrite
          rfl
        · obtain ⟨rfl, -⟩ := Prod.mk.inj hwrite
          apply MemoryBlock.store_of_outside
          by_contra hin
          exact hnot.2 ⟨rfl, by omega, by omega⟩
      have hcontroller : Function.update s.link.ends .plain
          { s.link.ends .plain with mblk := mblk', sbuf := sbuf' } .plain =
            { s.link.ends .plain with mblk := mblk', sbuf := sbuf' } :=
        Function.update_self _ _ _
      have hdevice : Function.update s.link.ends .plain
          { s.link.ends .plain with mblk := mblk', sbuf := sbuf' } .echoing =
            s.link.ends .echoing := Function.update_of_ne (by decide) _ _
      apply h.frame
      case hsnapshots => rfl
      case hkeyframe => exact congrArg (fun e => e.sbuf.syncbuf.makeKeyframe) hdevice
      case hused => exact congrArg (fun e => e.sbuf.syncbuf.used) hdevice
      case htransfers =>
        unfold FirstTransfer.device
        dsimp only
        rw [hdevice]
        exact fun c jobs htransfers => htransfers
      case hchannel => rfl
      case htbuf =>
        have htbuf := congrArg BidirectionalEnd.tbuf hcontroller
        exact htbuf
      case hbytes =>
        intro i h0 hi hnot
        obtain ⟨hbefore, hsame⟩ := hbytes i h0 hi hnot
        exact ⟨hbefore, (congrArg (fun e => e.mblk.buf i) hcontroller).trans hsame⟩
  | echoing =>
      have hwritten : ∀ i, (s.written i || decide (Side.echoing = .plain ∧ addr ≤ i ∧
          i < addr + (s.link.ends .echoing).mblk.writeCount addr data.length)) =
            s.written i := by
        intro i
        rw [decide_eq_false (fun hin => by cases hin.1), Bool.or_false]
      split_ifs at hwrite with hroom
      · obtain ⟨rfl, hsbufs⟩ := Prod.mk.inj hwrite
        obtain ⟨rfl, -⟩ := List.cons.inj hsbufs
        exact h.deviceMarks (SourceBuffer.MarksWhere.none _ n) hwritten
      · obtain ⟨rfl, hsbufs⟩ := Prod.mk.inj hwrite
        obtain ⟨rfl, -⟩ := List.cons.inj hsbufs
        have hcount : 0 < (s.link.ends .echoing).mblk.writeCount addr data.length ∧
            addr + (s.link.ends .echoing).mblk.writeCount addr data.length ≤ n := by
          unfold MemoryBlock.writeCount
          omega
        have hmarks := (s.link.ends .echoing).sbuf.invalidate_marksWhere
          ((s.link.ends .echoing).mblk.store addr data) he.hasBuf he.sbufBidirectional haddr
          (show addr ≤
            addr + (s.link.ends .echoing).mblk.writeCount addr data.length - 1 by omega)
          (show addr + (s.link.ends .echoing).mblk.writeCount addr data.length - 1 < n by omega)
        exact h.deviceMarks hmarks hwritten

/-- The device takes its first snapshot, which is a key frame. -/
theorem FirstTransfer.Phase.firstSnapshot
    (hends : ∀ side, (s.link.ends side).Invariant n side) {jobs : Side → List Snapshot}
    (hflow : s.link.Flow jobs) (hsnapshots : s.snapshots = [])
    (hkeyframe : s.device.sbuf.syncbuf.makeKeyframe = true)
    (hunused : s.device.sbuf.syncbuf.used = false)
    (hchannel : s.link.channel .echoing = []) (huntouched : s.Untouched n initial) :
    FirstTransfer.Phase n initial
        { s with
          link.ends := Function.update s.link.ends .echoing
            { s.device with sbuf := s.device.sbuf.synchronize s.device.mblk }
          snapshots := s.snapshots ++ [(s.device.mblk.buf,
            changeBit s.device.sbuf.syncbuf.buf s.device.sbuf.syncbuf.ndata)] } ∧
      s.device.sbuf.tookSnapshot (s.device.sbuf.synchronize s.device.mblk) = true := by
  have he := hends .echoing
  have hpos := hflow.size_pos he
  have hn : s.device.sbuf.syncbuf.ndata = n := he.sbufSize
  have hordered : s.device.sbuf.changed.rangeSet = true →
      s.device.sbuf.changed.startAddr ≤ s.device.sbuf.changed.endAddr :=
    fun hset => (he.within hset).2.1
  rcases s.device.sbuf.synchronize_cases s.device.mblk he.hasBuf (fun _ => hordered) with
    ⟨-, hused | ⟨-, hnone⟩⟩ | ⟨-, hnone, -⟩ | ⟨-, first, last, delta, hrange, hloaded⟩
  · rw [hunused] at hused
    cases hused
  · rw [hkeyframe] at hnone
    cases hnone
  · rw [hkeyframe] at hnone
    cases hnone
  · obtain ⟨⟨hlo, hle, hhi⟩, hbits⟩ := he.snapshotRange hpos hrange
    obtain ⟨hfirst, hlast, -⟩ := hrange.keyframe hkeyframe
    rw [he.size] at hlast
    have hloads := SynchronizedSourceBuffer.load_spec
      { s.device.sbuf.syncbuf with
        delta := delta
        makeKeyframe := false
        isKeyframe := s.device.sbuf.syncbuf.makeKeyframe }
      s.device.mblk he.hasBuf hlo (show last < s.device.sbuf.syncbuf.ndata by omega)
    rw [hloaded]
    generalize SynchronizedSourceBuffer.load
      { s.device.sbuf.syncbuf with
        delta := delta
        makeKeyframe := false
        isKeyframe := s.device.sbuf.syncbuf.makeKeyframe }
      s.device.mblk first last = sync' at hloads ⊢
    have hpending := hflow.transfer .echoing
    rw [hchannel] at hpending
    obtain ⟨-, hidle⟩ := hpending.of_empty.idle_of_unused hunused
    have hndata : (s.link.ends Side.echoing.other).tbuf.syncbuf.incoming.ndata = n :=
      (hends .plain).tbufSize
    have hload := hidle.load hrange (by rw [hndata]; exact ⟨hlo, hle, hhi⟩)
      (he.size.trans hndata.symm) hloads
    constructor
    · apply FirstTransfer.Phase.sending s.device.mblk.buf
        (changeBit s.device.sbuf.syncbuf.buf s.device.sbuf.syncbuf.ndata)
        ⟨window n sync'.buf, first, last, fun i =>
          sync'.bidirectional && marksIn sync'.delta n first last i⟩
      case hsnapshots =>
        dsimp only
        rw [hsnapshots, List.nil_append]
      case hdata =>
        intro i h0 hi
        have hbuf := hloads.buf i (show i < s.device.sbuf.syncbuf.ndata by omega)
        dsimp only
        rw [window, if_pos ⟨h0, hi⟩, hbuf, if_pos (by omega)]
      case hmarks =>
        intro i h0 hi
        have hsent := hloads.sentBits he.sbufBidirectional
        have hbidir : sync'.bidirectional = true :=
          hloads.bidirectional.trans he.sbufBidirectional
        dsimp only at hsent ⊢
        rw [hn] at hsent ⊢
        rw [hbidir, Bool.true_and, hsent]
        unfold marksIn
        rw [decide_eq_true ⟨h0, hi⟩, decide_eq_true (by omega), Bool.true_and, Bool.true_and]
      case hbrings =>
        unfold FirstTransfer.Brings FirstTransfer.controller FirstTransfer.device
        dsimp only
        rw [Function.update_self, Function.update_of_ne (by decide), hchannel]
        rw [hndata] at hload
        exact .empty (.data first _ hload)
      case huntouched =>
        intro i h0 hi
        unfold FirstTransfer.controller
        dsimp only
        rw [Function.update_of_ne (by decide)]
        exact huntouched i h0 hi
    · unfold SourceBuffer.tookSnapshot
      rw [hunused, hloads.used]
      rfl

theorem FirstTransfer.Phase.send (h : s.Phase n initial)
    (hends : ∀ side, (s.link.ends side).Invariant n side) {jobs : Side → List Snapshot}
    (hflow : s.link.Flow jobs) {side : Side} {sbuf' : SourceBuffer}
    (hsend : Iocom.send (s.link.ends side).mblk [(s.link.ends side).sbuf] = [sbuf']) :
    FirstTransfer.Phase n initial
      { s with
        link.ends := Function.update s.link.ends side { s.link.ends side with sbuf := sbuf' }
        snapshots :=
          if side = .echoing ∧ s.device.sbuf.tookSnapshot sbuf' = true then
            s.snapshots ++ [(s.device.mblk.buf,
              changeBit s.device.sbuf.syncbuf.buf s.device.sbuf.syncbuf.ndata)]
          else s.snapshots } := by
  simp only [Iocom.send, List.map_cons, List.map_nil, List.cons.injEq, and_true] at hsend
  subst hsend
  cases side with
  | plain =>
      rw [if_neg (fun hdevice => by cases hdevice.1)]
      have hcontroller : Function.update s.link.ends .plain
          { s.link.ends .plain with
            sbuf := (s.link.ends .plain).sbuf.synchronize (s.link.ends .plain).mblk } .plain =
          { s.link.ends .plain with
            sbuf := (s.link.ends .plain).sbuf.synchronize (s.link.ends .plain).mblk } :=
        Function.update_self _ _ _
      have hdevice : Function.update s.link.ends .plain
          { s.link.ends .plain with
            sbuf := (s.link.ends .plain).sbuf.synchronize (s.link.ends .plain).mblk } .echoing =
          s.link.ends .echoing := Function.update_of_ne (by decide) _ _
      apply h.of_link
      case hmblk =>
        have hmblk := congrArg BidirectionalEnd.mblk hcontroller
        exact hmblk
      case htbuf =>
        have htbuf := congrArg BidirectionalEnd.tbuf hcontroller
        exact htbuf
      case hdevice =>
        have hsbuf := congrArg BidirectionalEnd.sbuf hdevice
        exact hsbuf
      case hchannel => rfl
  | echoing =>
      have he := hends .echoing
      have hordered : s.device.sbuf.changed.rangeSet = true →
          s.device.sbuf.changed.startAddr ≤ s.device.sbuf.changed.endAddr :=
        fun hset => (he.within hset).2.1
      by_cases htook :
          s.device.sbuf.tookSnapshot (s.device.sbuf.synchronize s.device.mblk) = true
      · rw [if_pos ⟨rfl, htook⟩]
        cases h with
        | before hnone hkey hunused hchannel huntouched =>
            exact (FirstTransfer.Phase.firstSnapshot hends hflow hnone hkey hunused hchannel
              huntouched).1
        | sending copy marks job hone =>
            apply FirstTransfer.Phase.later
            dsimp only
            rw [hone, List.length_append]
            exact le_refl 2
        | arrived copy marks hone =>
            apply FirstTransfer.Phase.later
            dsimp only
            rw [hone, List.length_append]
            exact le_refl 2
        | later hmany =>
            apply FirstTransfer.Phase.later
            dsimp only
            rw [List.length_append]
            omega
      · have hsame : s.device.sbuf.synchronize s.device.mblk = s.device.sbuf := by
          rcases s.device.sbuf.synchronize_cases s.device.mblk he.hasBuf (fun _ => hordered) with
            ⟨hsame, -⟩ | ⟨-, -, hone, -⟩ | ⟨hunused, first, last, delta, -, hloaded⟩
          · exact hsame
          · rw [he.sbufBidirectional] at hone
            cases hone
          · rw [hloaded] at htook
            unfold SourceBuffer.tookSnapshot at htook
            rw [hunused] at htook
            have hused : (SynchronizedSourceBuffer.load
                { s.device.sbuf.syncbuf with
                  delta := delta
                  makeKeyframe := false
                  isKeyframe := s.device.sbuf.syncbuf.makeKeyframe }
                s.device.mblk first last).used = true := by
              unfold SynchronizedSourceBuffer.load
              dsimp only
              split_ifs <;> rfl
            exact absurd (by dsimp only; rw [hused]; rfl) htook
        rw [if_neg (fun htaken => htook htaken.2)]
        have hupdate : Function.update s.link.ends .echoing
            { s.link.ends .echoing with
              sbuf := s.device.sbuf.synchronize s.device.mblk } = s.link.ends := by
          rw [hsame]
          exact Function.update_eq_self _ _
        apply h.of_link
        case hmblk =>
          have hmblk := congrArg (fun ends => (ends Side.plain).mblk) hupdate
          exact hmblk
        case htbuf =>
          have htbuf := congrArg (fun ends => (ends Side.plain).tbuf) hupdate
          exact htbuf
        case hdevice =>
          have hsbuf := congrArg (fun ends => (ends Side.echoing).sbuf) hupdate
          exact hsbuf
        case hchannel => rfl

theorem FirstTransfer.Phase.sendFrame (h : s.Phase n initial) {side : Side}
    {con con' : Connection} {sbuf' : SourceBuffer} {frame : Frame}
    (hused : (s.link.ends side).sbuf.syncbuf.used = true)
    (hmake : makeDataFrame con (s.link.ends side).mblk (s.link.ends side).sbuf =
      some (con', sbuf', frame)) :
    FirstTransfer.Phase n initial
      { s with
        link :=
          { ends := Function.update s.link.ends side { s.link.ends side with sbuf := sbuf' }
            channel := Function.update s.link.channel side
              (s.link.channel side ++ [frame]) } } := by
  cases side with
  | plain =>
      have hcontroller : Function.update s.link.ends .plain
          { s.link.ends .plain with sbuf := sbuf' } .plain =
            { s.link.ends .plain with sbuf := sbuf' } := Function.update_self _ _ _
      apply h.of_link
      case hmblk =>
        have hmblk := congrArg BidirectionalEnd.mblk hcontroller
        exact hmblk
      case htbuf =>
        have htbuf := congrArg BidirectionalEnd.tbuf hcontroller
        exact htbuf
      case hdevice => rfl
      case hchannel => rfl
  | echoing =>
      have hbrings : ∀ jobs, s.Brings jobs →
          FirstTransfer.Brings
            { s with
              link :=
                { ends := Function.update s.link.ends .echoing
                    { s.link.ends .echoing with sbuf := sbuf' }
                  channel := Function.update s.link.channel .echoing
                    (s.link.channel .echoing ++ [frame]) } } jobs := by
        intro jobs hjobs
        unfold FirstTransfer.Brings FirstTransfer.controller FirstTransfer.device
        dsimp only
        rw [Function.update_self, Function.update_self, Function.update_of_ne (by decide)]
        exact hjobs.send fun c rest htransfers => htransfers.send hused hmake
      have hcontroller : Function.update s.link.ends .echoing
          { s.link.ends .echoing with sbuf := sbuf' } .plain = s.link.ends .plain :=
        Function.update_of_ne (by decide) _ _
      cases h with
      | before hnone hkey hunused =>
          rw [hused] at hunused
          cases hunused
      | sending copy marks job hone hdata hmarks hb huntouched =>
          apply FirstTransfer.Phase.sending copy marks job
          case hsnapshots => exact hone
          case hdata => exact hdata
          case hmarks => exact hmarks
          case hbrings => exact hbrings _ hb
          case huntouched =>
            unfold FirstTransfer.Untouched FirstTransfer.controller
            dsimp only
            rw [hcontroller]
            exact huntouched
      | arrived copy marks hone hb harrived =>
          apply FirstTransfer.Phase.arrived copy marks
          case hsnapshots => exact hone
          case hbrings => exact hbrings _ hb
          case harrived =>
            unfold FirstTransfer.Arrived FirstTransfer.controller
            dsimp only
            rw [hcontroller]
            exact harrived
      | later hmany =>
          apply FirstTransfer.Phase.later
          exact hmany

/-- A frame of the device arrives; the last frame of the snapshot completes it. -/
theorem FirstTransfer.Phase.deliver (h : s.Phase n initial)
    (hends : ∀ side, (s.link.ends side).Invariant n side) {side : Side} {frame : Frame}
    {rest : List Frame} (hchannel : s.link.channel side = frame :: rest) :
    FirstTransfer.Phase n initial
      { s with
        link :=
          { ends := Function.update s.link.ends side.other
              { s.link.ends side.other with
                tbuf := ((s.link.ends side.other).tbuf.storeFrame frame).2 }
            channel := Function.update s.link.channel side rest } } := by
  cases side with
  | plain =>
      have hcontroller : Function.update s.link.ends .echoing
          { s.link.ends .echoing with
            tbuf := ((s.link.ends .echoing).tbuf.storeFrame frame).2 } .plain =
          s.link.ends .plain := Function.update_of_ne (by decide) _ _
      have hdevice : Function.update s.link.ends .echoing
          { s.link.ends .echoing with
            tbuf := ((s.link.ends .echoing).tbuf.storeFrame frame).2 } .echoing =
          { s.link.ends .echoing with
            tbuf := ((s.link.ends .echoing).tbuf.storeFrame frame).2 } :=
        Function.update_self _ _ _
      apply h.of_link
      case hmblk =>
        have hmblk := congrArg BidirectionalEnd.mblk hcontroller
        exact hmblk
      case htbuf =>
        have htbuf := congrArg BidirectionalEnd.tbuf hcontroller
        exact htbuf
      case hdevice =>
        have hsbuf := congrArg BidirectionalEnd.sbuf hdevice
        exact hsbuf
      case hchannel => rfl
  | echoing =>
      rw [show Side.other .echoing = .plain from rfl]
      have he := hends .plain
      have hcontroller : Function.update s.link.ends .plain
          { s.link.ends .plain with
            tbuf := ((s.link.ends .plain).tbuf.storeFrame frame).2 } .plain =
          { s.link.ends .plain with
            tbuf := ((s.link.ends .plain).tbuf.storeFrame frame).2 } :=
        Function.update_self _ _ _
      have hdevice : Function.update s.link.ends .plain
          { s.link.ends .plain with
            tbuf := ((s.link.ends .plain).tbuf.storeFrame frame).2 } .echoing =
          s.link.ends .echoing := Function.update_of_ne (by decide) _ _
      -- What the frame does, if it takes the next of the pending snapshots or none.
      have hstored : ∀ jobs, s.Brings jobs → ∃ out later, jobs = out ++ later ∧
          FirstTransfer.Brings
            { s with
              link :=
                { ends := Function.update s.link.ends .plain
                    { s.link.ends .plain with
                      tbuf := ((s.link.ends .plain).tbuf.storeFrame frame).2 }
                  channel := Function.update s.link.channel .echoing rest } } later ∧
          (s.link.ends .plain).tbuf.syncbuf.Stores
            ((s.link.ends .plain).tbuf.storeFrame frame).2.syncbuf out := by
        intro jobs hjobs
        unfold FirstTransfer.Brings FirstTransfer.controller FirstTransfer.device at hjobs
        rw [hchannel] at hjobs
        obtain ⟨c, out, later, haccept, hsplit, hlater⟩ := hjobs.deliver
        obtain ⟨-, -, -, hincoming, hstores⟩ :=
          TargetBuffer.storeFrame_spec he.wellFormed haccept
        refine ⟨out, later, hsplit, ?_, hstores⟩
        unfold FirstTransfer.Brings FirstTransfer.controller FirstTransfer.device
        dsimp only
        rw [hcontroller, hdevice, Function.update_self]
        dsimp only
        rw [hincoming]
        exact hlater
      cases h with
      | before hnone hkey hunused hempty =>
          rw [hempty] at hchannel
          cases hchannel
      | sending copy marks job hone hdata hmarks hb huntouched =>
          obtain ⟨out, later, hsplit, hbrings, hstores⟩ := hstored _ hb
          cases hstores with
          | fresh hbuf =>
              rw [List.nil_append] at hsplit
              rw [← hsplit] at hbrings
              apply FirstTransfer.Phase.sending copy marks job
              case hsnapshots => exact hone
              case hdata => exact hdata
              case hmarks => exact hmarks
              case hbrings => exact hbrings
              case huntouched =>
                unfold FirstTransfer.Untouched FirstTransfer.controller
                dsimp only
                rw [hcontroller, hbuf]
                exact huntouched
          | complete marked hbuf hpend hsizes hnew hcompletes hwf =>
              obtain ⟨rfl, hnil⟩ := List.cons.inj hsplit
              change [] = later at hnil
              rw [← hnil] at hbrings
              have hmn : marked.ndata = n := hsizes.1.trans he.tbufSize
              have hmb : marked.bidirectional = true := hsizes.2.trans he.tbufBidirectional
              apply FirstTransfer.Phase.arrived copy marks
              case hsnapshots => exact hone
              case hbrings => exact hbrings
              case harrived =>
                unfold FirstTransfer.Arrived FirstTransfer.controller
                dsimp only
                rw [hcontroller]
                intro i h0 hi hwritten
                obtain ⟨hbit, hbyte⟩ := huntouched i h0 hi
                obtain ⟨htaken, hvalue⟩ := hcompletes.takes hmn hmb h0 hi
                rw [hbuf, hbit, Bool.false_or, hmarks i h0 hi] at htaken
                rw [hdata i h0 hi] at hvalue
                exact .inl ⟨htaken, fun _ => hvalue, hbyte hwritten⟩
      | arrived copy marks hone hb harrived =>
          obtain ⟨out, later, hsplit, hbrings, hstores⟩ := hstored _ hb
          obtain ⟨rfl, rfl⟩ := List.append_eq_nil_iff.mp hsplit.symm
          cases hstores with
          | fresh hbuf =>
              apply FirstTransfer.Phase.arrived copy marks
              case hsnapshots => exact hone
              case hbrings => exact hbrings
              case harrived =>
                unfold FirstTransfer.Arrived FirstTransfer.controller
                dsimp only
                rw [hcontroller, hbuf]
                exact harrived
      | later hmany =>
          apply FirstTransfer.Phase.later
          exact hmany

/-- `receive` of the controller, on one byte. -/
theorem BidirectionalEnd.Invariant.receive_byte {side : Side} {e : BidirectionalEnd}
    (he : e.Invariant n side) {mblk' : MemoryBlock} {sbuf' : SourceBuffer}
    {tbuf' : TargetBuffer}
    (hreceive : Iocom.receive e.mblk [e.sbuf] [e.tbuf] = (mblk', [sbuf'], [tbuf'])) :
    tbuf'.syncbuf.incoming = e.tbuf.syncbuf.incoming ∧
      ∀ i, 0 ≤ i → i < n →
        changeBit tbuf'.syncbuf.buf n i = false ∧
          mblk'.buf i =
            if changeBit e.tbuf.syncbuf.buf n i then e.tbuf.syncbuf.buf i
            else e.mblk.buf i := by
  simp only [Iocom.receive, he.static, Bool.false_eq_true, if_false,
    receiveTargetBuffer] at hreceive
  cases hused : e.tbuf.syncbuf.bufUsed with
  | false =>
      simp only [hused, Bool.false_eq_true, if_false, Prod.mk.injEq, List.cons.injEq,
        and_true] at hreceive
      obtain ⟨rfl, rfl, rfl⟩ := hreceive
      refine ⟨rfl, fun i h0 hi => ?_⟩
      have hbit : changeBit e.tbuf.syncbuf.buf n i = false := by
        cases hb : changeBit e.tbuf.syncbuf.buf n i with
        | false => rfl
        | true =>
            have hpending := (he.received i h0 hi hb).1
            rw [hused] at hpending
            cases hpending
      rw [hbit]
      exact ⟨rfl, rfl⟩
  | true =>
      simp only [hused, if_true, he.tbufBidirectional, List.map_cons, List.map_nil,
        Prod.mk.injEq, List.cons.injEq, and_true] at hreceive
      obtain ⟨rfl, -, rfl⟩ := hreceive
      have hn := he.tbufSize
      have hreceived := he.received
      rw [← hn] at hreceived
      obtain ⟨hincoming, -, -, hbits⟩ :=
        SynchronizedTargetBuffer.finishReceive_spec he.wellFormed he.tbufBidirectional hused
          hreceived
      refine ⟨hincoming, fun i h0 hi => ?_⟩
      have hvalue := e.mblk.copyReceived_apply he.tbufBidirectional (hreceived i h0 (by omega))
      rw [hn] at hbits hvalue
      exact ⟨hbits i h0 hi, hvalue⟩

theorem FirstTransfer.Phase.receive (h : s.Phase n initial)
    (hends : ∀ side, (s.link.ends side).Invariant n side) {side : Side}
    {mblk' : MemoryBlock} {sbuf' : SourceBuffer} {tbuf' : TargetBuffer}
    (hreceive : Iocom.receive (s.link.ends side).mblk [(s.link.ends side).sbuf]
      [(s.link.ends side).tbuf] = (mblk', [sbuf'], [tbuf'])) :
    FirstTransfer.Phase n initial
      { s with link.ends := Function.update s.link.ends side ⟨mblk', sbuf', tbuf'⟩ } := by
  have he := hends side
  cases side with
  | plain =>
      obtain ⟨hincoming, hbytes⟩ := he.receive_byte hreceive
      have hcontroller : Function.update s.link.ends .plain ⟨mblk', sbuf', tbuf'⟩ .plain =
          ⟨mblk', sbuf', tbuf'⟩ := Function.update_self _ _ _
      have hdevice : Function.update s.link.ends .plain ⟨mblk', sbuf', tbuf'⟩ .echoing =
          s.link.ends .echoing := Function.update_of_ne (by decide) _ _
      have hbrings : ∀ jobs, s.Brings jobs →
          FirstTransfer.Brings
            { s with link.ends := Function.update s.link.ends .plain ⟨mblk', sbuf', tbuf'⟩ }
            jobs := by
        intro jobs hjobs
        unfold FirstTransfer.Brings FirstTransfer.controller FirstTransfer.device
        dsimp only
        rw [hcontroller, hdevice]
        dsimp only
        rw [hincoming]
        exact hjobs
      have huntouched' : s.Untouched n initial →
          FirstTransfer.Untouched n initial
            { s with
              link.ends := Function.update s.link.ends .plain ⟨mblk', sbuf', tbuf'⟩ } := by
        intro huntouched
        unfold FirstTransfer.Untouched FirstTransfer.controller
        dsimp only
        rw [hcontroller]
        intro i h0 hi
        obtain ⟨hbit, hbyte⟩ := huntouched i h0 hi
        obtain ⟨hcleared, hvalue⟩ := hbytes i h0 hi
        rw [if_neg (by rw [hbit]; exact Bool.false_ne_true)] at hvalue
        refine ⟨hcleared, fun hwritten => ?_⟩
        rw [hvalue]
        exact hbyte hwritten
      cases h with
      | before hnone hkey hunused hempty huntouched =>
          apply FirstTransfer.Phase.before
          case hsnapshots => exact hnone
          case hkeyframe =>
            have hsame := congrArg (fun e => e.sbuf.syncbuf.makeKeyframe) hdevice
            exact hsame.trans hkey
          case hunused =>
            have hsame := congrArg (fun e => e.sbuf.syncbuf.used) hdevice
            exact hsame.trans hunused
          case hchannel => exact hempty
          case huntouched => exact huntouched' huntouched
      | sending copy marks job hone hdata hmarks hb huntouched =>
          apply FirstTransfer.Phase.sending copy marks job
          case hsnapshots => exact hone
          case hdata => exact hdata
          case hmarks => exact hmarks
          case hbrings => exact hbrings _ hb
          case huntouched => exact huntouched' huntouched
      | arrived copy marks hone hb harrived =>
          apply FirstTransfer.Phase.arrived copy marks
          case hsnapshots => exact hone
          case hbrings => exact hbrings _ hb
          case harrived =>
            unfold FirstTransfer.Arrived FirstTransfer.controller
            dsimp only
            rw [hcontroller]
            intro i h0 hi hwritten
            obtain ⟨hcleared, hvalue⟩ := hbytes i h0 hi
            refine .inr ⟨hcleared, ?_⟩
            rw [hvalue]
            rcases harrived i h0 hi hwritten with ⟨hbit, hcopy, hbyte⟩ | ⟨hbit, hbyte⟩
            · rw [hbit]
              by_cases hmark : marks i = true
              · rw [if_pos hmark, if_pos hmark, hcopy hmark]
              · rw [if_neg hmark, if_neg hmark, hbyte]
            · rw [if_neg (by rw [hbit]; exact Bool.false_ne_true), hbyte]
      | later hmany =>
          apply FirstTransfer.Phase.later
          exact hmany
  | echoing =>
      simp only [Iocom.receive, he.static, Bool.false_eq_true, if_false,
        receiveTargetBuffer] at hreceive
      cases hused : (s.link.ends .echoing).tbuf.syncbuf.bufUsed with
      | false =>
          simp only [hused, Bool.false_eq_true, if_false, Prod.mk.injEq, List.cons.injEq,
            and_true] at hreceive
          obtain ⟨rfl, rfl, rfl⟩ := hreceive
          exact h.deviceMarks (SourceBuffer.MarksWhere.none _ n) fun i => rfl
      | true =>
          simp only [hused, if_true, he.tbufBidirectional, List.map_cons, List.map_nil,
            Prod.mk.injEq, List.cons.injEq, and_true] at hreceive
          obtain ⟨rfl, rfl, rfl⟩ := hreceive
          obtain ⟨hlo, hle, hhi⟩ := he.wellFormed.bufRange hused
          rw [he.tbufSize] at hhi
          have hmarks := (s.link.ends .echoing).sbuf.echo_marksWhere
            ((s.link.ends .echoing).mblk.copyReceived (s.link.ends .echoing).tbuf.syncbuf)
            (s.link.ends .echoing).tbuf he.hasBuf he.sbufBidirectional hlo hle hhi
          exact h.deviceMarks hmarks fun i => rfl

end Phase

theorem FirstTransfer.Invariant.step {n : ℤ} {initial : Mem} {s t : FirstTransfer}
    (h : s.Invariant n initial) (hstep : FirstTransferStep s t) : t.Invariant n initial := by
  obtain ⟨jobs, hflow⟩ := h.flow
  cases hstep with
  | write side addr data mblk' sbuf' haddr hdata hwrite =>
      have hlink := s.link.simulates_write h.ends hflow haddr hdata hwrite
      obtain ⟨jobs', hflow', -⟩ := hlink.flow
      exact ⟨hlink.ends, ⟨jobs', hflow'⟩, h.phase.write h.ends haddr hdata hwrite⟩
  | send side sbuf' hsend =>
      have hlink := s.link.simulates_send h.ends hflow hsend
      obtain ⟨jobs', hflow', -⟩ := hlink.flow
      exact ⟨hlink.ends, ⟨jobs', hflow'⟩, h.phase.send h.ends hflow hsend⟩
  | sendFrame side con con' sbuf' frame hused hheader hmake =>
      have hlink := s.link.simulates_sendFrame h.ends hflow hused hmake
      obtain ⟨jobs', hflow', -⟩ := hlink.flow
      exact ⟨hlink.ends, ⟨jobs', hflow'⟩, h.phase.sendFrame hused hmake⟩
  | deliver side frame rest hchannel =>
      have hlink := s.link.simulates_deliver h.ends hflow hchannel
      obtain ⟨jobs', hflow', -⟩ := hlink.flow
      exact ⟨hlink.ends, ⟨jobs', hflow'⟩, h.phase.deliver h.ends hchannel⟩
  | receive side mblk' sbuf' tbuf' hreceive =>
      have hlink := s.link.simulates_receive h.ends hflow hreceive
      obtain ⟨jobs', hflow', -⟩ := hlink.flow
      exact ⟨hlink.ends, ⟨jobs', hflow'⟩, h.phase.receive h.ends hreceive⟩

theorem changeBit_zero {n i : ℤ} {m : Mem} (h : m (n + i / 8) = 0) :
    changeBit m n i = false := by
  unfold changeBit
  rw [h]
  exact Nat.zero_testBit _

theorem FirstTransferStart.invariant {n : ℤ} {s : FirstTransfer} (h : FirstTransferStart n s) :
    s.Invariant n s.controller.mblk.buf := by
  have hsize := h.size
  have hends : ∀ side, (s.link.ends side).Invariant n side := by
    intro side
    obtain ⟨con, remoteMblkId, hup, hsbuf, htbuf⟩ := h.buffers side
    obtain ⟨hn, hstatic⟩ := h.blocks side
    exact
      { size := hn
        sbufSize := by rw [hsbuf]; simp [initializeSourceBuffer, hstatic, hn]
        tbufSize := by rw [htbuf]; exact hn
        static := hstatic
        hasBuf := by rw [hsbuf]; simp [initializeSourceBuffer, hstatic]
        sbufBidirectional := by rw [hsbuf]; simp [initializeSourceBuffer, hstatic]
        tbufBidirectional := by rw [htbuf]; rfl
        samePeer := by rw [hsbuf, htbuf]; exact ⟨rfl, rfl⟩
        connectUp := by rw [hsbuf]; exact hup
        within := fun hset => by rw [hsbuf] at hset; cases hset
        marked := fun i h0 hi hbit => by
          rw [hsbuf, changeBit_zero rfl] at hbit
          cases hbit
        wellFormed :=
          { newRange := fun hnew => by rw [htbuf] at hnew; cases hnew
            bufRange := fun hused => by rw [htbuf] at hused; cases hused
            copied := fun i h0 hi _ => by
              rw [htbuf] at hi ⊢
              change i < (s.link.ends side).mblk.nbytes at hi
              simp only [initializeTargetBuffer, hi, if_true] }
        received := fun i h0 hi hbit => by
          rw [htbuf, changeBit_zero] at hbit
          · cases hbit
          · exact if_neg (by omega) }
  have hidle : ∀ side, IdlePhase (s.link.ends side.other).tbuf.syncbuf.incoming
      (s.link.ends side).sbuf.syncbuf := by
    intro side
    obtain ⟨con, remoteMblkId, -, hsbuf, -⟩ := h.buffers side
    obtain ⟨con', remoteMblkId', -, -, htbuf⟩ := h.buffers side.other
    have hn := (h.blocks side.other).1
    exact
      { sizes :=
          { hasBuf := (hends side).hasBuf
            ndata := (hends side).sbufSize.trans (hends side.other).tbufSize.symm
            bidirectional :=
              (hends side).sbufBidirectional.trans (hends side.other).tbufBidirectional.symm
            nbytes := by rw [htbuf]; rfl
            pos := by
              have htn := (hends side.other).tbufSize
              change 0 < (s.link.ends side.other).tbuf.syncbuf.ndata
              omega
            bound := by
              rw [htbuf]
              change transferBytes (s.link.ends side.other).mblk.nbytes true < _
              rw [hn]
              exact hsize.2 }
        unused := by rw [hsbuf]; rfl
        finished := by rw [htbuf]; rfl
        equal := .inl (by rw [hsbuf]; rfl) }
  refine ⟨hends, ⟨fun _ => [], fun side => ?_, fun side job hjob => ?_⟩, ?_⟩
  · rw [h.channel side]
    exact .empty (.idle (hidle side))
  · cases hjob
  · apply FirstTransfer.Phase.before
    case hsnapshots => exact h.snapshots
    case hkeyframe =>
      obtain ⟨con, remoteMblkId, -, hsbuf, -⟩ := h.buffers .echoing
      exact congrArg (fun sbuf => sbuf.syncbuf.makeKeyframe) hsbuf
    case hunused => exact (hidle .echoing).unused
    case hchannel => exact h.channel .echoing
    case huntouched =>
      intro i h0 hi
      obtain ⟨con, remoteMblkId, -, -, htbuf⟩ := h.buffers .plain
      have hn := (h.blocks .plain).1
      refine ⟨changeBit_zero ?_, fun _ => rfl⟩
      have hbuf := congrArg (fun tbuf => tbuf.syncbuf.buf (n + i / 8)) htbuf
      exact hbuf.trans (if_neg (by omega))

/-- When the first snapshot of the device has arrived and the controller has
called `receive`, the bytes which are not written on the controller are those of
the snapshot if and only if each of them was marked as written on the device or
was equal before. -/
theorem initial_content_arrives_iff {n : ℤ} {start s : FirstTransfer} {copy : Mem}
    {marks : ℤ → Bool} {mblk' : MemoryBlock} {sbuf' : SourceBuffer} {tbuf' : TargetBuffer}
    (hstart : FirstTransferStart n start)
    (hrun : Relation.ReflTransGen FirstTransferStep start s)
    (hsnapshots : s.snapshots = [(copy, marks)])
    (hsent : s.device.sbuf.syncbuf.used = false) (hdelivered : s.link.channel .echoing = [])
    (hreceive : receive s.controller.mblk [s.controller.sbuf] [s.controller.tbuf] =
      (mblk', [sbuf'], [tbuf'])) :
    (∀ i, 0 ≤ i → i < n → s.written i = false → mblk'.buf i = copy i) ↔
      ∀ i, 0 ≤ i → i < n → s.written i = false →
        marks i = true ∨ start.controller.mblk.buf i = copy i := by
  have h := TransitionSystem.invariant_of_run _ (fun _ _ h hstep => h.step hstep)
    hstart.invariant hrun
  have hvalue : ∀ i, 0 ≤ i → i < n → s.written i = false →
      mblk'.buf i = if marks i then copy i else start.controller.mblk.buf i := by
    intro i h0 hi hwritten
    obtain ⟨-, hbytes⟩ := (h.ends .plain).receive_byte hreceive
    rw [(hbytes i h0 hi).2]
    cases h.phase with
    | before hnone =>
        rw [hsnapshots] at hnone
        cases hnone
    | sending copy' marks' job hone hdata hmarks hbrings =>
        unfold FirstTransfer.Brings at hbrings
        rw [hdelivered] at hbrings
        obtain ⟨hnone, -⟩ := hbrings.of_empty.idle_of_unused hsent
        cases hnone
    | arrived copy' marks' hone hbrings harrived =>
        rw [hsnapshots] at hone
        obtain ⟨rfl, rfl⟩ := Prod.mk.inj (List.cons.inj hone).1
        rcases harrived i h0 hi hwritten with ⟨hbit, hcopy, hbyte⟩ | ⟨hbit, hbyte⟩
        · rw [hbit]
          by_cases hmark : marks i = true
          · rw [if_pos hmark, if_pos hmark, hcopy hmark]
          · rw [if_neg hmark, if_neg hmark, hbyte]
        · rw [if_neg (by rw [hbit]; exact Bool.false_ne_true), hbyte]
    | later hmany =>
        rw [hsnapshots] at hmany
        exact absurd hmany (Nat.not_succ_le_self 1)
  constructor
  · intro harrives i h0 hi hwritten
    have hbyte := harrives i h0 hi hwritten
    rw [hvalue i h0 hi hwritten] at hbyte
    by_cases hmark : marks i = true
    · exact .inl hmark
    · rw [if_neg hmark] at hbyte
      exact .inr hbyte
  · intro hcondition i h0 hi hwritten
    rw [hvalue i h0 hi hwritten]
    rcases hcondition i h0 hi hwritten with hmark | hequal
    · rw [if_pos hmark]
    · rw [hequal, ite_self]

def newOneByteLink : FirstTransfer :=
  let mblk : Side → MemoryBlock := fun side =>
    ⟨10, ⟨true, false, true, false, false⟩, 1, true, fun _ => if side = .plain then 0 else 5⟩
  { link :=
      { ends := fun side =>
          let clink : ConnectionLink := ⟨0, decide (side = .echoing)⟩
          { mblk := mblk side
            sbuf := initializeSourceBuffer clink (mblk side) 10 true
            tbuf := initializeTargetBuffer clink (mblk side) 10 true }
        channel := fun _ => [] }
    written := fun _ => false
    snapshots := [] }

def newOneByteConnection : Connection where
  isSocket := true
  connectUp := true
  frameSz := 600
  dstFrameSz := 600
  maxInAir := 6000
  maxAckInAir := 6000
  unacknowledgedLimit := 600
  bytesSent := 0
  processedBytes := 0
  bytesReceived := 0
  bytesAcknowledged := 0
  frameOutUsed := 0
  frameOutPos := 0
  frameOutNr := 1
  authenticationSent := true
  authenticationReceived := true

theorem newOneByteLink_start : FirstTransferStart 1 newOneByteLink where
  size := by decide
  blocks := fun _ => ⟨rfl, rfl⟩
  down := rfl
  buffers := fun side => ⟨⟨0, decide (side = .echoing)⟩, 10, rfl, rfl, rfl⟩
  channel := fun _ => rfl
  written := fun _ => rfl
  snapshots := rfl

/-- The device sends its key frame and its change bits, none of which is set,
and the controller keeps its byte. -/
theorem newOneByteLink_run :
    ∃ s, Relation.ReflTransGen FirstTransferStep newOneByteLink s ∧
      (∃ copy marks, s.snapshots = [(copy, marks)] ∧ copy 0 = 5) ∧
      s.device.sbuf.syncbuf.used = false ∧ s.link.channel .echoing = [] ∧
      s.written 0 = false ∧
      ∃ mblk' sbuf' tbuf',
        receive s.controller.mblk [s.controller.sbuf] [s.controller.tbuf] =
          (mblk', [sbuf'], [tbuf']) ∧ mblk'.buf 0 = 0 :=
  ⟨_,
    .tail (.tail (.tail (.tail (.tail .refl
      (.send newOneByteLink .echoing _ rfl))
      (.sendFrame _ .echoing newOneByteConnection _ _ _ (by decide) (by decide) rfl))
      (.sendFrame _ .echoing newOneByteConnection _ _ _ (by decide) (by decide) rfl))
      (.deliver _ .echoing _ _ rfl))
      (.deliver _ .echoing _ _ rfl),
    ⟨_, _, rfl, by decide⟩, by decide, rfl, rfl, _, _, _, rfl, by decide⟩

theorem initial_content_arrives_iff_newOneByteLink :
    ∃ (s : FirstTransfer) (copy : Mem) (marks : ℤ → Bool) (mblk' : MemoryBlock),
      s.snapshots = [(copy, marks)] ∧
        ((∀ i, 0 ≤ i → i < 1 → s.written i = false → mblk'.buf i = copy i) ↔
          ∀ i, 0 ≤ i → i < 1 → s.written i = false →
            marks i = true ∨ newOneByteLink.controller.mblk.buf i = copy i) := by
  obtain ⟨s, hrun, ⟨copy, marks, hsnapshots, -⟩, hsent, hdelivered, -, mblk', sbuf', tbuf',
    hreceive, -⟩ := newOneByteLink_run
  exact ⟨s, copy, marks, mblk', hsnapshots,
    initial_content_arrives_iff newOneByteLink_start hrun hsnapshots hsent hdelivered hreceive⟩

/-- The content of the device does not reach the controller. -/
theorem initial_content_not_arrived :
    ¬∀ (n : ℤ) (start s : FirstTransfer) (copy : Mem) (marks : ℤ → Bool)
        (mblk' : MemoryBlock) (sbuf' : SourceBuffer) (tbuf' : TargetBuffer),
      FirstTransferStart n start → Relation.ReflTransGen FirstTransferStep start s →
      s.snapshots = [(copy, marks)] → s.device.sbuf.syncbuf.used = false →
      s.link.channel .echoing = [] →
      receive s.controller.mblk [s.controller.sbuf] [s.controller.tbuf] =
        (mblk', [sbuf'], [tbuf']) →
      ∀ i, 0 ≤ i → i < n → s.written i = false → mblk'.buf i = copy i := by
  intro harrives
  obtain ⟨s, hrun, ⟨copy, marks, hsnapshots, hcopy⟩, hsent, hdelivered, hwritten, mblk', sbuf',
    tbuf', hreceive, hbyte⟩ := newOneByteLink_run
  have hequal := harrives 1 newOneByteLink s copy marks mblk' sbuf' tbuf' newOneByteLink_start
    hrun hsnapshots hsent hdelivered hreceive 0 (le_refl 0) Int.one_pos hwritten
  rw [hbyte, hcopy] at hequal
  cases hequal

end Iocom
