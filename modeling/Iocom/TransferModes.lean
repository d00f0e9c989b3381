import Iocom.FrameRanges
import Iocom.NetworkIsolation

/-!
# Agreement of the two ends on the transfer mode

Two roots have a connection with each other.  An info of a memory block which
one end sends links the block of the same name at the other end; whether the
link has change bits is worked out at each end, from the flags of both blocks.
Infos may be sent again and arrive in any order, and data is written,
transferred and received in between.
-/

namespace Iocom

/-- The connection as its two ends have set it up.  An end is named by its flag
`IOC_CONNECT_UP`. -/
structure ConnectionEnds where
  con : Bool → ℕ
  bidirectionalMblks : Bool

def ConnectionEnds.link (ends : ConnectionEnds) (e : Bool) : ConnectionLink :=
  ⟨ends.con e, e⟩

structure ConnectedRoots where
  root : Bool → Root
  infos : Bool → List MemoryBlockInfo
  frames : Bool → List Frame

def ConnectedRoots.setRoot (s : ConnectedRoots) (e : Bool) (root : Root) : ConnectedRoots :=
  { s with root := Function.update s.root e root }

/-- The content of the info frame which `ioc_make_mblk_info_frame` makes. -/
def LinkedBlock.mbinfo (block : LinkedBlock) : MemoryBlockInfo where
  name := block.name
  mblkId := block.mblk.mblkId
  nbytes := block.mblk.nbytes
  down := block.mblk.flags.down
  up := block.mblk.flags.up
  bidirectional := block.mblk.flags.bidirectional

inductive DataAction where
  | write (addr : ℤ) (data : List UInt8)
  | send
  | receive

def LinkedBlock.transfer (block : LinkedBlock) : DataAction → LinkedBlock
  | .write addr data => block.write addr data
  | .send => block.send
  | .receive => block.receive

def DataAction.Allowed : DataAction → Prop
  | .write addr data => 0 ≤ addr ∧ data ≠ []
  | _ => True

/-- Steps of the two roots.  Blocks which both ends have are linked: an info
which would create one is left out.  There is memory for a larger block. -/
inductive ModeStep (ends : ConnectionEnds) : ConnectedRoots → ConnectedRoots → Prop
  | sendInfo (s : ConnectedRoots) (e : Bool) (block : LinkedBlock)
      (hblock : block ∈ (s.root e).mblks) :
      ModeStep ends s
        { s with infos := Function.update s.infos e (block.mbinfo :: s.infos e) }
  | mbinfoReceived (s : ConnectedRoots) (e : Bool) (info : MemoryBlockInfo)
      (permissions : InfoPermissions) (draws : List ℕ) (fresh newbuf : Mem)
      (hinfo : info ∈ s.infos (!e))
      (hbidirectional : permissions.bidirectionalMblks = ends.bidirectionalMblks)
      (hfound : (s.root e).findBlock info.name < (s.root e).mblks.length ∨
        permissions.dynamicMblks = false) :
      ModeStep ends s
        (s.setRoot e
          ((s.root e).mbinfoReceived (ends.link e) permissions info draws fresh
            (some newbuf)))
  | transfer (s : ConnectedRoots) (e : Bool) (pos : ℕ) (action : DataAction)
      (hallowed : action.Allowed) :
      ModeStep ends s
        (s.setRoot e
          { s.root e with
            mblks := (s.root e).mblks.modify pos fun block => block.transfer action })
  | makeDataFrame (s : ConnectedRoots) (e : Bool) (pos index : ℕ) (block : LinkedBlock)
      (sbuf sbuf' : SourceBuffer) (con con' : Connection) (frame : Frame)
      (hblock : (s.root e).mblks[pos]? = some block)
      (hsbuf : block.sbufs[index]? = some sbuf)
      (hused : sbuf.syncbuf.used = true)
      (hmake : Iocom.makeDataFrame con block.mblk sbuf = some (con', sbuf', frame)) :
      ModeStep ends s
        { s.setRoot e
            { s.root e with
              mblks := (s.root e).mblks.modify pos fun block =>
                block.makeDataFrame index con } with
          frames := Function.update s.frames e (frame :: s.frames e) }
  | dataFrameReceived (s : ConnectedRoots) (e : Bool) (frame : Frame) (authorized : Bool)
      (hframe : frame ∈ s.frames (!e)) :
      ModeStep ends s
        (s.setRoot e ((s.root e).processReceivedDataFrame (ends.con e) authorized frame))

/-! ## Blocks which may be linked -/

structure Root.Addressable (root : Root) : Prop where
  names : (root.mblks.map LinkedBlock.name).Nodup
  ids : root.ids.Nodup
  small : ∀ id ∈ root.ids, id ≤ 0x7FFF

structure ModeStart (s : ConnectedRoots) : Prop where
  addressable : ∀ e, (s.root e).Addressable
  sizes : ∀ e, ∀ block ∈ (s.root e).mblks, BlockSize block.mblk.nbytes
  unlinked : ∀ e, ∀ block ∈ (s.root e).mblks, block.sbufs = [] ∧ block.tbufs = []
  infos : ∀ e, s.infos e = []
  frames : ∀ e, s.frames e = []

/-- Two blocks which are not both transferred up, down and with change bits, and
of which a smaller one can be resized. -/
structure LinkedBlock.Compatible (ends : ConnectionEnds) (a b : LinkedBlock) : Prop where
  direction :
    (ends.bidirectionalMblks && a.mblk.flags.bidirectional && b.mblk.flags.bidirectional &&
      (a.mblk.flags.up && b.mblk.flags.up) &&
      (a.mblk.flags.down && b.mblk.flags.down)) = false
  resizable :
    a.mblk.nbytes < b.mblk.nbytes →
      a.mblk.flags.allowResize = true ∧ a.mblk.bufAllocated = true

/-- The blocks of equal names are compatible, and no static block is marked for
transfer with change bits. -/
structure ConnectedRoots.Compatible (ends : ConnectionEnds) (s : ConnectedRoots) : Prop where
  static : ∀ e, ∀ a ∈ (s.root e).mblks,
    a.mblk.flags.static = true → a.mblk.flags.bidirectional = false
  blocks : ∀ e, ∀ a ∈ (s.root e).mblks, ∀ b ∈ (s.root (!e)).mblks,
    b.name = a.name → a.Compatible ends b

/-! ## What is promised about a link -/

/-- The two ends of a link have change bits or not, and space for as many
bytes; the target accepts the frames of the source. -/
structure LinkAgrees (mblk : MemoryBlock) (sbuf : SourceBuffer) (tbuf : TargetBuffer) :
    Prop where
  mode : sbuf.syncbuf.bidirectional = tbuf.syncbuf.bidirectional
  nbytes : sbuf.syncbuf.nbytes = tbuf.syncbuf.nbytes
  ndata : sbuf.syncbuf.hasBuf = true → sbuf.syncbuf.ndata = tbuf.syncbuf.ndata
  accepted : sbuf.syncbuf.used = true → ∀ con con' sbuf' frame,
    makeDataFrame con mblk sbuf = some (con', sbuf', frame) →
      (tbuf.storeFrame frame).1 = true

/-- Whenever the source buffer of one end puts the identifier of a block into its
frames, it agrees with the target buffer which that block has for the
connection; and the frames which are on their way are accepted there. -/
structure ConnectedRoots.LinksAgree (ends : ConnectionEnds) (s : ConnectedRoots) : Prop where
  links : ∀ e, ∀ a ∈ (s.root e).mblks, ∀ b ∈ (s.root (!e)).mblks,
    ∀ sbuf ∈ a.sbufs, ∀ tbuf ∈ b.tbufs,
      sbuf.clink.con = ends.con e → tbuf.clink.con = ends.con (!e) →
        osUint sbuf.remoteMblkId = b.mblk.mblkId → LinkAgrees a.mblk sbuf tbuf
  frames : ∀ e, ∀ frame ∈ s.frames e, ∀ b ∈ (s.root (!e)).mblks,
    ∀ tbuf ∈ b.tbufs, tbuf.clink.con = ends.con (!e) →
      frame.mblkId = b.mblk.mblkId → (tbuf.storeFrame frame).1 = true

/-! ## Buffers of one link -/

def ConnectionEnds.peer (ends : ConnectionEnds) (e : Bool) (b : LinkedBlock) : Peer :=
  ⟨e, ends.bidirectionalMblks, b.mbinfo⟩

def ConnectionEnds.mode (ends : ConnectionEnds) (e : Bool) (a b : LinkedBlock) : Bool :=
  (ends.peer e b).usesChangeBits a.mblk.flags

structure SourceBuffer.LinkedTo (sbuf : SourceBuffer) (con : ConnectionLink)
    (remoteMblkId : ℤ) (bidirectional : Bool) (n : ℤ) : Prop where
  clink : sbuf.clink = con
  remote : sbuf.remoteMblkId = remoteMblkId
  mode : sbuf.syncbuf.bidirectional = bidirectional
  nbytes : sbuf.syncbuf.nbytes = transferBytes n bidirectional
  range : sbuf.syncbuf.RangeFits n

structure TargetBuffer.LinkedTo (tbuf : TargetBuffer) (con : ConnectionLink)
    (bidirectional : Bool) : Prop where
  clink : tbuf.clink = con
  mode : tbuf.syncbuf.bidirectional = bidirectional
  ends : tbuf.syncbuf.EndsInData

structure LinkedBlock.LinkedTo (block : LinkedBlock) (con : ConnectionLink)
    (remoteMblkId : ℤ) (mode : Bool) : Prop where
  fits : block.Fits
  sbufs : ∀ sbuf ∈ block.sbufs, sbuf.LinkedTo con remoteMblkId mode block.mblk.nbytes
  tbufs : ∀ tbuf ∈ block.tbufs, tbuf.LinkedTo con mode

section Links

variable {block : LinkedBlock} {con : ConnectionLink} {remote : ℤ} {mode : Bool} {n : ℤ}

theorem SourceBuffer.LinkedTo.of_sizes {sbuf sbuf' : SourceBuffer}
    (h : sbuf.LinkedTo con remote mode n)
    (hlink : sbuf'.remoteMblkId = sbuf.remoteMblkId ∧ sbuf'.clink = sbuf.clink)
    (hmode : sbuf'.syncbuf.bidirectional = sbuf.syncbuf.bidirectional)
    (hnbytes : sbuf'.syncbuf.nbytes = sbuf.syncbuf.nbytes)
    (hrange : sbuf'.syncbuf.RangeFits n) : sbuf'.LinkedTo con remote mode n where
  clink := hlink.2.trans h.clink
  remote := hlink.1.trans h.remote
  mode := hmode.trans h.mode
  nbytes := hnbytes.trans h.nbytes
  range := hrange

theorem SourceBuffer.LinkedTo.invalidate {sbuf : SourceBuffer}
    (h : sbuf.LinkedTo con remote mode n) (mblk : MemoryBlock) (first last : ℤ) :
    (sbuf.invalidate mblk first last).LinkedTo con remote mode n := by
  obtain ⟨buf, hbuf⟩ := sbuf.invalidate_syncbuf mblk first last
  apply h.of_sizes (sbuf.invalidate_link mblk first last)
  · rw [hbuf]
  · rw [hbuf]
  · exact SourceBuffer.invalidate_rangeFits h.range mblk first last

theorem SourceBuffer.synchronize_nbytes (sbuf : SourceBuffer) (mblk : MemoryBlock) :
    (sbuf.synchronize mblk).syncbuf.nbytes = sbuf.syncbuf.nbytes := by
  unfold SourceBuffer.synchronize
  dsimp only
  split
  · rfl
  split
  · exact (SynchronizedSourceBuffer.load_sizes _ _ _ _).2.2.1
  split
  · exact (SynchronizedSourceBuffer.load_sizes _ _ _ _).2.2.1
  split
  · rfl
  · exact (SynchronizedSourceBuffer.load_sizes _ _ _ _).2.2.1

theorem SourceBuffer.LinkedTo.synchronize {sbuf : SourceBuffer} {mblk : MemoryBlock}
    (h : sbuf.LinkedTo con remote mode mblk.nbytes) (hfits : sbuf.Fits mblk.nbytes)
    (hsize : 0 ≤ mblk.nbytes) :
    (sbuf.synchronize mblk).LinkedTo con remote mode mblk.nbytes := by
  apply h.of_sizes (sbuf.synchronize_link mblk)
  · exact (sbuf.synchronize_sameSetup mblk).bidirectional
  · exact sbuf.synchronize_nbytes mblk
  · exact SourceBuffer.synchronize_rangeFits h.range hfits hsize

theorem LinkedBlock.LinkedTo.transfer (h : block.LinkedTo con remote mode)
    {action : DataAction} (hallowed : action.Allowed) :
    (block.transfer action).LinkedTo con remote mode := by
  cases action with
  | write addr data =>
      refine ⟨h.fits.write hallowed.1 hallowed.2, ?_, h.tbufs⟩
      change ∀ sbuf ∈ (Iocom.write block.mblk block.sbufs addr data).2,
        sbuf.LinkedTo con remote mode (Iocom.write block.mblk block.sbufs addr data).1.nbytes
      unfold Iocom.write
      split
      · exact h.sbufs
      · intro sbuf hsbuf
        obtain ⟨old, hold, rfl⟩ := List.mem_map.mp hsbuf
        exact (h.sbufs old hold).invalidate _ _ _
  | send =>
      refine ⟨h.fits.send, fun sbuf hsbuf => ?_, h.tbufs⟩
      obtain ⟨old, hold, rfl⟩ := List.mem_map.mp hsbuf
      exact (h.sbufs old hold).synchronize (h.fits.sbufs old hold) h.fits.size.1
  | receive =>
      have hreceived := @receive_rule
        (fun sbuf => sbuf.LinkedTo con remote mode block.mblk.nbytes)
        (fun tbuf => tbuf.LinkedTo con mode)
        (fun _ mblk first last hsbuf => hsbuf.invalidate mblk first last)
        (fun _ htbuf => ⟨htbuf.clink, htbuf.mode, htbuf.ends⟩)
        block.mblk block.sbufs block.tbufs h.sbufs h.tbufs
      have hnbytes := (receive_fits h.fits.sbufs h.fits.tbufs).1
      refine ⟨h.fits.receive, ?_, hreceived.2⟩
      intro sbuf hsbuf
      change sbuf.LinkedTo con remote mode (Iocom.receive block.mblk block.sbufs block.tbufs).1.nbytes
      rw [hnbytes]
      exact hreceived.1 sbuf hsbuf

theorem LinkedBlock.LinkedTo.makeDataFrame (h : block.LinkedTo con remote mode) (index : ℕ)
    (frameCon : Connection) : (block.makeDataFrame index frameCon).LinkedTo con remote mode := by
  refine ⟨h.fits.makeDataFrame index frameCon, ?_, h.tbufs⟩
  apply forall_mem_modify h.sbufs
  intro sbuf hsbuf
  have hlinked := h.sbufs sbuf (List.mem_of_getElem? hsbuf)
  cases hmake : Iocom.makeDataFrame frameCon block.mblk sbuf with
  | none => exact hlinked
  | some made =>
      obtain ⟨con', sbuf', frame⟩ := made
      have hrange := makeDataFrame_rangeFits hmake hlinked.range
      obtain ⟨count, rfl⟩ := makeDataFrame_sbuf hmake
      have hsizes := sbuf.syncbuf.advance_sizes count
      exact hlinked.of_sizes ⟨rfl, rfl⟩ hsizes.2.2.2 hsizes.2.2.1 hrange

theorem LinkedBlock.LinkedTo.storeFrame (h : block.LinkedTo con remote mode) (pos : ℕ)
    {frame : Frame}
    (hlies : block.tbufs ≠ [] → frame.LiesWithin block.mblk.nbytes mode) :
    LinkedBlock.LinkedTo
      { block with tbufs := block.tbufs.modify pos fun tbuf => (tbuf.storeFrame frame).2 }
      con remote mode := by
  have hframe : ∀ tbuf ∈ block.tbufs,
      frame.LiesWithin block.mblk.nbytes tbuf.syncbuf.bidirectional := by
    intro tbuf htbuf
    rw [(h.tbufs tbuf htbuf).mode]
    exact hlies (List.ne_nil_of_mem htbuf)
  refine ⟨h.fits.storeFrame pos fun tbuf htbuf => ?_, h.sbufs, ?_⟩
  · have hmem := List.mem_of_getElem? htbuf
    exact TargetBuffer.frameFits_of_liesWithin (h.fits.tbufs tbuf hmem) (hframe tbuf hmem)
      (h.tbufs tbuf hmem).ends
  · apply forall_mem_modify h.tbufs
    intro tbuf htbuf
    have hmem := List.mem_of_getElem? htbuf
    have hlinked := h.tbufs tbuf hmem
    refine ⟨(tbuf.storeFrame_link frame).2.trans hlinked.clink, ?_, ?_⟩
    · rw [TargetBuffer.storeFrame_bidirectional]
      exact hlinked.mode
    · exact TargetBuffer.storeFrame_endsInData (h.fits.tbufs tbuf hmem) (hframe tbuf hmem)
        hlinked.ends

theorem LinkedBlock.LinkedTo.mbinfoNewSbuf {info : MemoryBlockInfo}
    (h : block.LinkedTo con (osShort info.mblkId) mode)
    (hstatic : block.mblk.flags.static = true → mode = false) :
    (block.mbinfoNewSbuf con info mode).LinkedTo con (osShort info.mblkId) mode := by
  have hfits := h.fits.mbinfoNewSbuf con info mode
  have hnew : ∀ remote : ℤ,
      ((initializeSourceBuffer con block.mblk remote mode).synchronize block.mblk).LinkedTo con
        remote mode block.mblk.nbytes := by
    intro remote
    have hinitial : (initializeSourceBuffer con block.mblk remote mode).LinkedTo con remote mode
        block.mblk.nbytes := by
      refine ⟨rfl, rfl, ?_, ?_, fun hused => by cases hused⟩
      all_goals
        unfold initializeSourceBuffer
        cases hflag : block.mblk.flags.static with
        | false => simp
        | true => simp [hstatic hflag, transferBytes]
    exact hinitial.synchronize (initializeSourceBuffer_fits _ _ _ _) h.fits.size.1
  unfold LinkedBlock.mbinfoNewSbuf at hfits ⊢
  split at hfits
  · rw [if_pos (by assumption)]
    exact h
  · rw [if_neg (by assumption)]
    refine ⟨hfits, fun sbuf hsbuf => ?_, h.tbufs⟩
    rcases List.mem_append.mp hsbuf with hold | hlast
    · exact h.sbufs sbuf hold
    · rw [List.mem_singleton.mp hlast]
      exact hnew _

theorem LinkedBlock.LinkedTo.mbinfoNewTbuf {info : MemoryBlockInfo}
    (h : block.LinkedTo con (osShort info.mblkId) mode) :
    (block.mbinfoNewTbuf con info mode).LinkedTo con (osShort info.mblkId) mode := by
  have hfits := h.fits.mbinfoNewTbuf con info mode
  unfold LinkedBlock.mbinfoNewTbuf at hfits ⊢
  split at hfits
  · rw [if_pos (by assumption)]
    exact h
  · rw [if_neg (by assumption)]
    refine ⟨hfits, h.sbufs, fun tbuf htbuf => ?_⟩
    rcases List.mem_append.mp htbuf with hold | hlast
    · apply h.tbufs tbuf
      split at hold
      · exact hold
      · exact List.mem_of_mem_filter hold
    · rw [List.mem_singleton.mp hlast]
      generalize osShort info.mblkId = remote
      exact ⟨rfl, rfl, fun hnew => by cases hnew⟩

/-- The flags of a static block which is not marked for change bits. -/
theorem Peer.usesChangeBits_of_oneWay {flags : MblkFlags} (peer : Peer)
    (h : flags.bidirectional = false) : peer.usesChangeBits flags = false := by
  unfold Peer.usesChangeBits
  simp [h]

theorem LinkedBlock.LinkedTo.link {info : MemoryBlockInfo} {ends : ConnectionEnds} {e : Bool}
    {b : LinkedBlock} (hmode : mode = ends.mode e block b)
    (hinfo : info.down = b.mblk.flags.down ∧ info.up = b.mblk.flags.up ∧
      info.bidirectional = b.mblk.flags.bidirectional)
    (hstatic : block.mblk.flags.static = true → block.mblk.flags.bidirectional = false)
    (h : block.LinkedTo (ends.link e) (osShort info.mblkId) mode) :
    (block.link (ends.link e) ends.bidirectionalMblks info).LinkedTo (ends.link e)
      (osShort info.mblkId) mode := by
  have huses : mode = Peer.usesChangeBits block.mblk.flags ⟨e, ends.bidirectionalMblks, info⟩ := by
    rw [hmode]
    unfold ConnectionEnds.mode ConnectionEnds.peer Peer.usesChangeBits LinkedBlock.mbinfo
    dsimp only
    rw [hinfo.1, hinfo.2.1, hinfo.2.2]
  have hoff : block.mblk.flags.static = true → mode = false := by
    intro hflag
    rw [huses]
    exact Peer.usesChangeBits_of_oneWay _ (hstatic hflag)
  have hrule := @LinkedBlock.link_mode_rule block (ends.link e)
    (fun b => b.mblk = block.mblk ∧ b.LinkedTo (ends.link e) (osShort info.mblkId) mode)
    ⟨rfl, h⟩ ⟨e, ends.bidirectionalMblks, info⟩ mode rfl huses
  refine (hrule ?_ ?_).2
  · rintro b ⟨hmblk, hb⟩
    refine ⟨(b.mbinfoNewSbuf_mblk _ _ _).trans hmblk, hb.mbinfoNewSbuf ?_⟩
    rw [hmblk]
    exact hoff
  · rintro b ⟨hmblk, hb⟩
    exact ⟨(b.mbinfoNewTbuf_mblk _ _ _).trans hmblk, hb.mbinfoNewTbuf⟩

end Links

/-! ## What holds in every run -/

def LinkedBlock.HasBuffers (block : LinkedBlock) : Prop :=
  block.sbufs ≠ [] ∨ block.tbufs ≠ []

structure LinkedBlock.PairedWith (ends : ConnectionEnds) (e : Bool) (a b : LinkedBlock) :
    Prop where
  linked : a.LinkedTo (ends.link e) (osShort b.mblk.mblkId) (ends.mode e a b)
  larger : a.HasBuffers → b.mblk.nbytes ≤ a.mblk.nbytes
  compatible : a.Compatible ends b

structure LinkedBlock.Agrees (ends : ConnectionEnds) (e : Bool) (peers : List LinkedBlock)
    (a : LinkedBlock) : Prop where
  fits : a.Fits
  static : a.mblk.flags.static = true → a.mblk.flags.bidirectional = false
  unlinked : a.HasBuffers → ∃ b ∈ peers, b.name = a.name
  paired : ∀ b ∈ peers, b.name = a.name → a.PairedWith ends e b

/-- An info describes a block.  The block has grown since at most to the size of
the block of its name at the other end. -/
structure MemoryBlockInfo.IsInfoOf (info : MemoryBlockInfo) (peers : List LinkedBlock)
    (b : LinkedBlock) : Prop where
  name : info.name = b.name
  mblkId : info.mblkId = b.mblk.mblkId
  flags : info.down = b.mblk.flags.down ∧ info.up = b.mblk.flags.up ∧
    info.bidirectional = b.mblk.flags.bidirectional
  nbytes : info.nbytes ≤ b.mblk.nbytes
  grown : ∀ a ∈ peers, a.name = b.name → b.mblk.nbytes ≤ max info.nbytes a.mblk.nbytes

/-- A frame on its way from block `a` to block `b`. -/
structure Frame.Links (ends : ConnectionEnds) (e : Bool) (frame : Frame) (a b : LinkedBlock) :
    Prop where
  name : b.name = a.name
  mblkId : frame.mblkId = b.mblk.mblkId
  larger : b.mblk.nbytes ≤ a.mblk.nbytes
  lies : frame.LiesWithin a.mblk.nbytes (ends.mode e a b)

structure ModeInvariant (ends : ConnectionEnds) (s : ConnectedRoots) : Prop where
  addressable : ∀ e, (s.root e).Addressable
  blocks : ∀ e, ∀ a ∈ (s.root e).mblks, a.Agrees ends e (s.root (!e)).mblks
  infos : ∀ e, ∀ info ∈ s.infos e,
    ∃ b ∈ (s.root e).mblks, info.IsInfoOf (s.root (!e)).mblks b
  frames : ∀ e, ∀ frame ∈ s.frames e,
    ∃ a ∈ (s.root e).mblks, ∃ b ∈ (s.root (!e)).mblks, frame.Links ends e a b

/-! ### Blocks which grow -/

/-- The block stays the same for the other end, except that it may grow up to
the size which the block of its name has there. -/
structure LinkedBlock.Grows (peers : List LinkedBlock) (a a' : LinkedBlock) : Prop where
  name : a'.name = a.name
  mblkId : a'.mblk.mblkId = a.mblk.mblkId
  flags : a'.mblk.flags = a.mblk.flags
  bufAllocated : a.mblk.bufAllocated = true → a'.mblk.bufAllocated = true
  nbytes : a.mblk.nbytes ≤ a'.mblk.nbytes
  bound : ∀ b ∈ peers, b.name = a.name → a'.mblk.nbytes ≤ max a.mblk.nbytes b.mblk.nbytes

section Grows

variable {ends : ConnectionEnds} {e : Bool} {peers : List LinkedBlock} {a a' b : LinkedBlock}

theorem LinkedBlock.Grows.refl (peers : List LinkedBlock) (a : LinkedBlock) :
    a.Grows peers a :=
  ⟨rfl, rfl, rfl, id, le_rfl, fun _ _ _ => le_max_left _ _⟩

theorem LinkedBlock.Grows.of_mblk (hname : a'.name = a.name)
    (hid : a'.mblk.mblkId = a.mblk.mblkId) (hflags : a'.mblk.flags = a.mblk.flags)
    (hallocated : a'.mblk.bufAllocated = a.mblk.bufAllocated)
    (hnbytes : a'.mblk.nbytes = a.mblk.nbytes) : a.Grows peers a' where
  name := hname
  mblkId := hid
  flags := hflags
  bufAllocated := fun h => hallocated.trans h
  nbytes := hnbytes.ge
  bound := fun _ _ _ => hnbytes.le.trans (le_max_left _ _)

theorem forall₂_modify_self {α : Type*} {R : α → α → Prop} (hrefl : ∀ x, R x x) {xs : List α}
    {pos : ℕ} {f : α → α} (hf : ∀ x, xs[pos]? = some x → R x (f x)) :
    List.Forall₂ R xs (xs.modify pos f) := by
  induction xs generalizing pos with
  | nil =>
      rw [List.modify_nil]
      exact .nil
  | cons x xs ih =>
      cases pos with
      | zero => exact .cons (hf x rfl) (List.forall₂_same.mpr fun y _ => hrefl y)
      | succ pos => exact .cons (hrefl x) (ih fun y hy => hf y hy)

theorem forall₂_exists_right {α β : Type*} {R : α → β → Prop} {xs : List α} {ys : List β}
    (h : List.Forall₂ R xs ys) {x : α} (hx : x ∈ xs) : ∃ y ∈ ys, R x y := by
  induction h with
  | nil => cases hx
  | cons hxy _ ih =>
      rcases List.mem_cons.mp hx with rfl | hx
      · exact ⟨_, List.mem_cons_self, hxy⟩
      · obtain ⟨y, hy, hR⟩ := ih hx
        exact ⟨y, List.mem_cons_of_mem _ hy, hR⟩

theorem forall₂_exists_left {α β : Type*} {R : α → β → Prop} {xs : List α} {ys : List β}
    (h : List.Forall₂ R xs ys) {y : β} (hy : y ∈ ys) : ∃ x ∈ xs, R x y :=
  forall₂_exists_right h.flip hy

theorem Root.Addressable.grows {root root' : Root} (h : root.Addressable)
    (hgrows : List.Forall₂ (LinkedBlock.Grows peers) root.mblks root'.mblks) :
    root'.Addressable := by
  have hnames : root'.mblks.map LinkedBlock.name = root.mblks.map LinkedBlock.name := by
    generalize root.mblks = xs at hgrows
    generalize root'.mblks = ys at hgrows
    induction hgrows with
    | nil => rfl
    | cons hxy _ ih => rw [List.map_cons, List.map_cons, hxy.name, ih]
  have hids : root'.ids = root.ids := by
    unfold Root.ids
    generalize root.mblks = xs at hgrows
    generalize root'.mblks = ys at hgrows
    induction hgrows with
    | nil => rfl
    | cons hxy _ ih => rw [List.map_cons, List.map_cons, hxy.mblkId, ih]
  exact ⟨hnames ▸ h.names, hids ▸ h.ids, hids ▸ h.small⟩

theorem ConnectionEnds.mode_congr {b b' : LinkedBlock} (hflags : b'.mblk.flags = b.mblk.flags)
    (hflags' : a'.mblk.flags = a.mblk.flags) : ends.mode e a' b' = ends.mode e a b := by
  unfold ConnectionEnds.mode ConnectionEnds.peer Peer.usesChangeBits LinkedBlock.mbinfo
  dsimp only
  rw [hflags, hflags']

/-- The two ends work out the same mode, unless the blocks are transferred up,
down and with change bits. -/
theorem LinkedBlock.Compatible.mode_eq (h : a.Compatible ends b) :
    ends.mode (!e) b a = ends.mode e a b := by
  have hdirection := h.direction
  unfold ConnectionEnds.mode ConnectionEnds.peer Peer.usesChangeBits LinkedBlock.mbinfo
  dsimp only
  rw [Bool.and_comm b.mblk.flags.up, Bool.and_comm b.mblk.flags.down,
    Bool.and_right_comm _ b.mblk.flags.bidirectional]
  generalize (a.mblk.flags.up && b.mblk.flags.up) = up at hdirection ⊢
  generalize (a.mblk.flags.down && b.mblk.flags.down) = down at hdirection ⊢
  generalize (ends.bidirectionalMblks && a.mblk.flags.bidirectional &&
    b.mblk.flags.bidirectional) = bdflag at hdirection ⊢
  cases e <;> cases up <;> cases down <;> cases bdflag <;> simp at hdirection ⊢

theorem LinkedBlock.Agrees.peer_grows {peers' : List LinkedBlock} {own : List LinkedBlock}
    (ha : a ∈ own) (h : a.Agrees ends e peers)
    (hgrows : List.Forall₂ (LinkedBlock.Grows own) peers peers') :
    a.Agrees ends e peers' where
  fits := h.fits
  static := h.static
  unlinked := by
    intro hbuffers
    obtain ⟨b, hb, hname⟩ := h.unlinked hbuffers
    obtain ⟨b', hb', hbb'⟩ := forall₂_exists_right hgrows hb
    exact ⟨b', hb', hbb'.name.trans hname⟩
  paired := by
    intro b' hb' hname'
    obtain ⟨b, hb, hbb'⟩ := forall₂_exists_left hgrows hb'
    have hname : b.name = a.name := hbb'.name.symm.trans hname'
    have hpaired := h.paired b hb hname
    have hbound := hbb'.bound a ha hname.symm
    exact
      { linked := by
          rw [hbb'.mblkId, ConnectionEnds.mode_congr hbb'.flags rfl]
          exact hpaired.linked
        larger := fun hbuffers => by
          have := hpaired.larger hbuffers
          omega
        compatible :=
          { direction := by
              rw [hbb'.flags]
              exact hpaired.compatible.direction
            resizable := fun hlt => hpaired.compatible.resizable (by omega) } }

theorem MemoryBlockInfo.IsInfoOf.grows {info : MemoryBlockInfo} {b' : LinkedBlock}
    (h : info.IsInfoOf peers b) (hb : b.Grows peers b') : info.IsInfoOf peers b' where
  name := h.name.trans hb.name.symm
  mblkId := h.mblkId.trans hb.mblkId.symm
  flags := by
    rw [hb.flags]
    exact h.flags
  nbytes := h.nbytes.trans hb.nbytes
  grown := by
    intro c hc hname
    have hbefore := h.grown c hc (hname.trans hb.name)
    have hbound := hb.bound c hc (hname.trans hb.name)
    omega

theorem MemoryBlockInfo.IsInfoOf.peer_grows {info : MemoryBlockInfo}
    {own peers' : List LinkedBlock} (h : info.IsInfoOf peers b)
    (hgrows : List.Forall₂ (LinkedBlock.Grows own) peers peers') :
    info.IsInfoOf peers' b where
  name := h.name
  mblkId := h.mblkId
  flags := h.flags
  nbytes := h.nbytes
  grown := by
    intro c' hc' hname
    obtain ⟨c, hc, hcc'⟩ := forall₂_exists_left hgrows hc'
    have hbefore := h.grown c hc (hcc'.name.symm.trans hname)
    have hle := hcc'.nbytes
    omega

/-- A frame stays on its way from block to block when the sender grows: it may
not, for it is as large as the receiver. -/
theorem Frame.Links.sender_grows {frame : Frame} (h : frame.Links ends e a b)
    (hb : b ∈ peers) (hgrows : a.Grows peers a') : frame.Links ends e a' b := by
  have hsame : a'.mblk.nbytes = a.mblk.nbytes := by
    have hbound := hgrows.bound b hb h.name
    have hle := hgrows.nbytes
    have hlarger := h.larger
    omega
  exact
    { name := h.name.trans hgrows.name.symm
      mblkId := h.mblkId
      larger := by
        rw [hsame]
        exact h.larger
      lies := by
        rw [hsame, ConnectionEnds.mode_congr rfl hgrows.flags]
        exact h.lies }

theorem Frame.Links.receiver_grows {frame : Frame} {own : List LinkedBlock} {b' : LinkedBlock}
    (h : frame.Links ends e a b) (ha : a ∈ own) (hgrows : b.Grows own b') :
    frame.Links ends e a b' where
  name := hgrows.name.trans h.name
  mblkId := h.mblkId.trans hgrows.mblkId.symm
  larger := by
    have hbound := hgrows.bound a ha h.name.symm
    have hlarger := h.larger
    omega
  lies := by
    rw [ConnectionEnds.mode_congr hgrows.flags rfl]
    exact h.lies

end Grows

/-! ### Steps -/

section Steps

variable {ends : ConnectionEnds} {s : ConnectedRoots} {e : Bool}

theorem ConnectedRoots.setRoot_root (s : ConnectedRoots) (e : Bool) (root : Root) :
    (s.setRoot e root).root e = root ∧ (s.setRoot e root).root (!e) = s.root (!e) := by
  unfold ConnectedRoots.setRoot
  refine ⟨Function.update_self _ _ _, Function.update_of_ne ?_ _ _⟩
  cases e <;> decide

theorem bool_cases {P : Bool → Prop} (e : Bool) (hself : P e) (hother : P (!e)) : ∀ e', P e' := by
  intro e'
  cases e <;> cases e' <;> assumption

/-- One root changes: its blocks stay the same for the other end, up to growing,
and agree with the blocks there. -/
theorem ModeInvariant.setRoot (h : ModeInvariant ends s) {root : Root}
    (hgrows : List.Forall₂ (LinkedBlock.Grows (s.root (!e)).mblks) (s.root e).mblks root.mblks)
    (hagrees : ∀ a ∈ root.mblks, a.Agrees ends e (s.root (!e)).mblks) :
    ModeInvariant ends (s.setRoot e root) := by
  obtain ⟨hself, hother⟩ := s.setRoot_root e root
  have hself' : (s.setRoot e root).root (!!e) = root := by rw [Bool.not_not, hself]
  have hsame : s.root (!!e) = s.root e := by rw [Bool.not_not]
  refine ⟨bool_cases e ?_ ?_, bool_cases e ?_ ?_, bool_cases e ?_ ?_, bool_cases e ?_ ?_⟩
  · rw [hself]
    exact (h.addressable e).grows hgrows
  · rw [hother]
    exact h.addressable (!e)
  · rw [hself, hother]
    exact hagrees
  · rw [hself', hother]
    intro b hb
    have hbefore := h.blocks (!e) b hb
    rw [hsame] at hbefore
    exact hbefore.peer_grows hb hgrows
  · intro info hinfo
    obtain ⟨b, hb, hinfo⟩ := h.infos e info hinfo
    obtain ⟨b', hb', hbb'⟩ := forall₂_exists_right hgrows hb
    rw [hself, hother]
    exact ⟨b', hb', hinfo.grows hbb'⟩
  · intro info hinfo
    obtain ⟨b, hb, hinfo⟩ := h.infos (!e) info hinfo
    rw [hsame] at hinfo
    rw [hself', hother]
    exact ⟨b, hb, hinfo.peer_grows hgrows⟩
  · intro frame hframe
    obtain ⟨a, ha, b, hb, hlinks⟩ := h.frames e frame hframe
    obtain ⟨a', ha', haa'⟩ := forall₂_exists_right hgrows ha
    rw [hself, hother]
    exact ⟨a', ha', b, hb, hlinks.sender_grows hb haa'⟩
  · intro frame hframe
    obtain ⟨a, ha, b, hb, hlinks⟩ := h.frames (!e) frame hframe
    rw [hsame] at hb
    obtain ⟨b', hb', hbb'⟩ := forall₂_exists_right hgrows hb
    rw [hself', hother]
    exact ⟨a, ha, b', hb', hlinks.receiver_grows ha hbb'⟩

theorem ModeInvariant.modify (h : ModeInvariant ends s) {pos : ℕ} {f : LinkedBlock → LinkedBlock}
    (hf : ∀ a, (s.root e).mblks[pos]? = some a →
      a.Grows (s.root (!e)).mblks (f a) ∧ (f a).Agrees ends e (s.root (!e)).mblks) :
    ModeInvariant ends
      (s.setRoot e { s.root e with mblks := (s.root e).mblks.modify pos f }) := by
  apply h.setRoot
  · exact forall₂_modify_self (LinkedBlock.Grows.refl _) fun a ha => (hf a ha).1
  · exact forall_mem_modify (h.blocks e) fun a ha => (hf a ha).2

/-- A block keeps its sizes and flags, and gets no new buffers. -/
theorem LinkedBlock.Agrees.of_linkedTo {peers : List LinkedBlock} {a a' : LinkedBlock}
    (h : a.Agrees ends e peers) (hgrows : a.Grows peers a')
    (hnbytes : a'.mblk.nbytes = a.mblk.nbytes) (hfits : a'.Fits)
    (hbuffers : a'.HasBuffers → a.HasBuffers)
    (hlinked : ∀ b ∈ peers, b.name = a.name →
      a'.LinkedTo (ends.link e) (osShort b.mblk.mblkId) (ends.mode e a b)) :
    a'.Agrees ends e peers where
  fits := hfits
  static := by
    rw [hgrows.flags]
    exact h.static
  unlinked := by
    rw [hgrows.name]
    exact fun hhas => h.unlinked (hbuffers hhas)
  paired := by
    intro b hb hname
    have hname : b.name = a.name := hname.trans hgrows.name
    have hpaired := h.paired b hb hname
    exact
      { linked := by
          rw [ConnectionEnds.mode_congr rfl hgrows.flags]
          exact hlinked b hb hname
        larger := fun hhas => by
          rw [hnbytes]
          exact hpaired.larger (hbuffers hhas)
        compatible :=
          { direction := by
              rw [hgrows.flags]
              exact hpaired.compatible.direction
            resizable := fun hlt => by
              rw [hnbytes] at hlt
              obtain ⟨hallow, halloc⟩ := hpaired.compatible.resizable hlt
              rw [hgrows.flags]
              exact ⟨hallow, hgrows.bufAllocated halloc⟩ } }

theorem LinkedBlock.transfer_mblk (block : LinkedBlock) (action : DataAction) :
    (block.transfer action).mblk.mblkId = block.mblk.mblkId ∧
      (block.transfer action).mblk.flags = block.mblk.flags ∧
      (block.transfer action).mblk.bufAllocated = block.mblk.bufAllocated ∧
      (block.transfer action).mblk.nbytes = block.mblk.nbytes := by
  cases action with
  | write addr data =>
      unfold LinkedBlock.transfer LinkedBlock.write Iocom.write
      dsimp only
      split <;> exact ⟨rfl, rfl, rfl, rfl⟩
  | send => exact ⟨rfl, rfl, rfl, rfl⟩
  | receive =>
      change (Iocom.receive block.mblk block.sbufs block.tbufs).1.mblkId = _ ∧
        (Iocom.receive block.mblk block.sbufs block.tbufs).1.flags = _ ∧
        (Iocom.receive block.mblk block.sbufs block.tbufs).1.bufAllocated = _ ∧
        (Iocom.receive block.mblk block.sbufs block.tbufs).1.nbytes = _
      generalize block.mblk = mblk
      generalize block.sbufs = sbufs
      induction block.tbufs generalizing mblk sbufs with
      | nil => exact ⟨rfl, rfl, rfl, rfl⟩
      | cons tbuf tbufs ih =>
          unfold Iocom.receive
          split
          · exact ⟨rfl, rfl, rfl, rfl⟩
          · have hturn := ih (receiveTargetBuffer mblk sbufs tbuf).1
              (receiveTargetBuffer mblk sbufs tbuf).2.1
            revert hturn
            unfold receiveTargetBuffer
            split <;> exact fun hturn => hturn

theorem LinkedBlock.transfer_hasBuffers {block : LinkedBlock} {action : DataAction}
    (h : (block.transfer action).HasBuffers) : block.HasBuffers := by
  by_contra hnone
  unfold LinkedBlock.HasBuffers at hnone
  rw [not_or, not_not, not_not] at hnone
  obtain ⟨hsbufs, htbufs⟩ := hnone
  rcases h with hsome | hsome
  · apply hsome
    cases action with
    | write addr data =>
        unfold LinkedBlock.transfer LinkedBlock.write Iocom.write
        rw [hsbufs]
        dsimp only
        split <;> rfl
    | send =>
        unfold LinkedBlock.transfer LinkedBlock.send Iocom.send
        rw [hsbufs]
        rfl
    | receive =>
        unfold LinkedBlock.transfer LinkedBlock.receive
        rw [hsbufs, htbufs]
        rfl
  · apply hsome
    cases action with
    | write addr data => exact htbufs
    | send => exact htbufs
    | receive =>
        unfold LinkedBlock.transfer LinkedBlock.receive
        rw [htbufs]
        rfl

theorem ModeInvariant.transfer (h : ModeInvariant ends s) {pos : ℕ} {action : DataAction}
    (hallowed : action.Allowed) :
    ModeInvariant ends
      (s.setRoot e
        { s.root e with
          mblks := (s.root e).mblks.modify pos fun block => block.transfer action }) := by
  apply h.modify
  intro a ha
  have hagrees := h.blocks e a (List.mem_of_getElem? ha)
  obtain ⟨hid, hflags, hallocated, hnbytes⟩ := a.transfer_mblk action
  have hname : (a.transfer action).name = a.name := by cases action <;> rfl
  have hgrows : a.Grows (s.root (!e)).mblks (a.transfer action) :=
    .of_mblk hname hid hflags hallocated hnbytes
  refine ⟨hgrows, ?_⟩
  apply hagrees.of_linkedTo hgrows hnbytes
  · cases action with
    | write addr data => exact hagrees.fits.write hallowed.1 hallowed.2
    | send => exact hagrees.fits.send
    | receive => exact hagrees.fits.receive
  · exact LinkedBlock.transfer_hasBuffers
  · intro b hb hname
    exact (hagrees.paired b hb hname).linked.transfer hallowed

theorem LinkedBlock.Agrees.makeDataFrame {peers : List LinkedBlock} {a : LinkedBlock}
    (h : a.Agrees ends e peers) (index : ℕ) (con : Connection) :
    (a.makeDataFrame index con).Agrees ends e peers := by
  have hgrows : a.Grows peers (a.makeDataFrame index con) := .of_mblk rfl rfl rfl rfl rfl
  apply h.of_linkedTo hgrows rfl (h.fits.makeDataFrame index con)
  · rintro (hsbufs | htbufs)
    · left
      intro hnone
      apply hsbufs
      unfold LinkedBlock.makeDataFrame
      rw [hnone]
      exact List.modify_nil _ _
    · exact .inr htbufs
  · intro b hb hname
    exact (h.paired b hb hname).linked.makeDataFrame index con

theorem ModeInvariant.makeDataFrame (h : ModeInvariant ends s) {pos index : ℕ}
    {block : LinkedBlock} {sbuf sbuf' : SourceBuffer} {con con' : Connection} {frame : Frame}
    (hblock : (s.root e).mblks[pos]? = some block) (hsbuf : block.sbufs[index]? = some sbuf)
    (hused : sbuf.syncbuf.used = true)
    (hmake : Iocom.makeDataFrame con block.mblk sbuf = some (con', sbuf', frame)) :
    ModeInvariant ends
      { s.setRoot e
          { s.root e with
            mblks := (s.root e).mblks.modify pos fun block => block.makeDataFrame index con } with
        frames := Function.update s.frames e (frame :: s.frames e) } := by
  have hmem := List.mem_of_getElem? hblock
  have hagrees := h.blocks e block hmem
  -- The frame goes to the block which the source buffer is linked to.
  obtain ⟨b, hb, hname⟩ := hagrees.unlinked (.inl (List.ne_nil_of_mem (List.mem_of_getElem? hsbuf)))
  have hpaired := hagrees.paired b hb hname
  have hlinked := hpaired.linked.sbufs sbuf (List.mem_of_getElem? hsbuf)
  have hlies := makeDataFrame_liesWithin hmake hlinked.range hused
  rw [hlinked.mode] at hlies
  have hsmall : b.mblk.mblkId ≤ 0x7FFF :=
    (h.addressable (!e)).small _ (List.mem_map.mpr ⟨b, hb, rfl⟩)
  have hmblkId : frame.mblkId = b.mblk.mblkId := by
    rw [(makeDataFrame_address hmake).1, hlinked.remote, osShort_of_le hsmall]
    unfold osUint
    omega
  have hlinks : frame.Links ends e block b :=
    ⟨hname, hmblkId, hpaired.larger (.inl (List.ne_nil_of_mem (List.mem_of_getElem? hsbuf))), hlies⟩
  have hsame : ∀ a : LinkedBlock,
      a.Grows (s.root (!e)).mblks (a.makeDataFrame index con) :=
    fun _ => .of_mblk rfl rfl rfl rfl rfl
  have hmodified : ModeInvariant ends
      (s.setRoot e
        { s.root e with
          mblks := (s.root e).mblks.modify pos fun block => block.makeDataFrame index con }) :=
    h.modify fun a ha =>
      ⟨hsame a, (h.blocks e a (List.mem_of_getElem? ha)).makeDataFrame index con⟩
  have hframes := hmodified.frames
  obtain ⟨hself, hother⟩ := s.setRoot_root e
    { s.root e with
      mblks := (s.root e).mblks.modify pos fun block => block.makeDataFrame index con }
  refine ⟨hmodified.addressable, hmodified.blocks, hmodified.infos, bool_cases e ?_ ?_⟩
  · intro frame' hframe'
    dsimp only at hframe'
    rw [Function.update_self] at hframe'
    rcases List.mem_cons.mp hframe' with rfl | hold
    · have hgrows : List.Forall₂ (LinkedBlock.Grows (s.root (!e)).mblks) (s.root e).mblks
          ((s.root e).mblks.modify pos fun block => block.makeDataFrame index con) :=
        forall₂_modify_self (LinkedBlock.Grows.refl _) fun a _ => hsame a
      obtain ⟨a', ha', haa'⟩ := forall₂_exists_right hgrows hmem
      dsimp only
      rw [hself, hother]
      exact ⟨a', ha', b, hb, hlinks.sender_grows hb haa'⟩
    · exact hframes e frame' hold
  · intro frame' hframe'
    dsimp only at hframe'
    rw [Function.update_of_ne (by cases e <;> decide)] at hframe'
    exact hframes (!e) frame' hframe'

/-- The block which a frame from the other end is stored for. -/
theorem ModeInvariant.addressed (h : ModeInvariant ends s) {frame : Frame}
    (hframe : frame ∈ s.frames (!e)) {b : LinkedBlock} (hb : b ∈ (s.root e).mblks)
    (hid : frame.mblkId = b.mblk.mblkId) :
    ∃ a ∈ (s.root (!e)).mblks, a.name = b.name ∧ b.mblk.nbytes ≤ a.mblk.nbytes ∧
      (b.HasBuffers → frame.LiesWithin b.mblk.nbytes (ends.mode e b a)) := by
  obtain ⟨a, ha, b', hb', hlinks⟩ := h.frames (!e) frame hframe
  rw [Bool.not_not] at hb'
  have hsame : b' = b := by
    apply List.inj_on_of_nodup_map (h.addressable e).ids hb' hb
    rw [← hlinks.mblkId, hid]
  subst b'
  refine ⟨a, ha, hlinks.name.symm, hlinks.larger, fun hbuffers => ?_⟩
  have hpaired := (h.blocks e b hb).paired a ha hlinks.name.symm
  have hsize : a.mblk.nbytes = b.mblk.nbytes :=
    le_antisymm (hpaired.larger hbuffers) hlinks.larger
  have hlies := hlinks.lies
  rw [hsize, hpaired.compatible.mode_eq] at hlies
  exact hlies

theorem Root.addressed_mblkId {root : Root} {con mblkId : ℕ} {block : LinkedBlock}
    (h : root.mblks[root.addressed con mblkId]? = some block) : block.mblk.mblkId = mblkId := by
  obtain ⟨hlt, hget⟩ := List.getElem?_eq_some_iff.mp h
  have hfound := List.findIdx_getElem (w := hlt)
  rw [Bool.and_eq_true] at hfound
  rw [← hget]
  exact of_decide_eq_true hfound.1

theorem ModeInvariant.dataFrameReceived (h : ModeInvariant ends s) {frame : Frame}
    {authorized : Bool} (hframe : frame ∈ s.frames (!e)) :
    ModeInvariant ends
      (s.setRoot e ((s.root e).processReceivedDataFrame (ends.con e) authorized frame)) := by
  unfold Root.processReceivedDataFrame
  cases authorized with
  | false =>
      rw [if_pos (by decide)]
      exact h.setRoot (List.forall₂_same.mpr fun a _ => LinkedBlock.Grows.refl _ a) (h.blocks e)
  | true =>
      rw [if_neg (by decide)]
      apply h.modify
      intro b hb
      have hmem := List.mem_of_getElem? hb
      have hagrees := h.blocks e b hmem
      have hid : frame.mblkId = b.mblk.mblkId := (Root.addressed_mblkId hb).symm
      obtain ⟨a, ha, hname, -, hlies⟩ := h.addressed hframe hmem hid
      have hgrows : b.Grows (s.root (!e)).mblks
          { b with
            tbufs := b.tbufs.modify (b.findTbuf (ends.con e)) fun tbuf =>
              (tbuf.storeFrame frame).2 } := .of_mblk rfl rfl rfl rfl rfl
      have hstored := (hagrees.paired a ha hname).linked.storeFrame (b.findTbuf (ends.con e))
        fun htbufs => hlies (.inr htbufs)
      refine ⟨hgrows, hagrees.of_linkedTo hgrows rfl hstored.fits ?_ ?_⟩
      · rintro (hsbufs | htbufs)
        · exact .inl hsbufs
        · right
          intro hnone
          apply htbufs
          dsimp only
          rw [hnone]
          exact List.modify_nil _ _
      · intro a' ha' hname'
        obtain rfl : a' = a :=
          List.inj_on_of_nodup_map (h.addressable (!e)).names ha' ha (hname'.trans hname.symm)
        exact hstored

theorem LinkedBlock.resizeMblk_eq {a : LinkedBlock} {nbytes : ℤ} (newbuf : Mem)
    (h : a.mblk.nbytes < nbytes →
      a.mblk.flags.allowResize = true ∧ a.mblk.bufAllocated = true) :
    (a.resizeMblk nbytes false (some newbuf)).2 =
      if nbytes ≤ a.mblk.nbytes then a else { a with mblk := a.mblk.grow nbytes fun _ => 0 } := by
  unfold LinkedBlock.resizeMblk
  split
  · rfl
  next hlt =>
    obtain ⟨hallow, halloc⟩ := h (not_le.mp hlt)
    rw [hallow, halloc]
    rfl

theorem BlockSize.of_le {m n : ℤ} (hn : BlockSize n) (h0 : 0 ≤ m) (hle : m ≤ n) : BlockSize m := by
  refine ⟨h0, ?_⟩
  have hbound := hn.2
  unfold transferBytes at hbound ⊢
  rw [if_pos rfl] at hbound ⊢
  omega

/-- The block after an info about the block `b` of the other end: it is at least
as large as `b`, and its buffers belong to the link with `b`. -/
theorem LinkedBlock.Agrees.linked {own peers : List LinkedBlock} {a b : LinkedBlock}
    {info : MemoryBlockInfo} (ha : a ∈ own) (hb : b ∈ peers) (h : a.Agrees ends e peers)
    (hpeer : BlockSize b.mblk.nbytes) (hnames : (peers.map LinkedBlock.name).Nodup)
    (hinfo : info.IsInfoOf own b) (hname : a.name = info.name) (newbuf : Mem) :
    a.Grows peers
        ((a.resizeMblk info.nbytes false (some newbuf)).2.link (ends.link e)
          ends.bidirectionalMblks info) ∧
      LinkedBlock.Agrees ends e peers
        ((a.resizeMblk info.nbytes false (some newbuf)).2.link (ends.link e)
          ends.bidirectionalMblks info) := by
  have hnamed : b.name = a.name := hinfo.name.symm.trans hname.symm
  have hpaired := h.paired b hb hnamed
  have hle := hinfo.nbytes
  have honly : ∀ b' ∈ peers, b'.name = a.name → b' = b := fun b' hb' hname' =>
    List.inj_on_of_nodup_map hnames hb' hb (hname'.trans hnamed.symm)
  have hfits : (a.resizeMblk info.nbytes false (some newbuf)).2.Fits := by
    apply h.fits.resizeMblk
    intro hgrows
    have hlt := hgrows.1
    have hnone : ¬a.HasBuffers := fun hbuffers => by
      have := hpaired.larger hbuffers
      omega
    unfold LinkedBlock.HasBuffers at hnone
    rw [not_or, not_not, not_not] at hnone
    refine ⟨⟨?_, hnone.2⟩, hpeer.of_le (h.fits.size.1.trans hlt.le) hle⟩
    rw [hnone.1]
    exact fun _ hmem => by cases hmem
  have hresized : (a.resizeMblk info.nbytes false (some newbuf)).2 =
      if info.nbytes ≤ a.mblk.nbytes then a
      else { a with mblk := a.mblk.grow info.nbytes fun _ => 0 } :=
    LinkedBlock.resizeMblk_eq newbuf fun hlt => hpaired.compatible.resizable (hlt.trans_le hle)
  rw [hresized] at hfits ⊢
  -- The block before it is linked.
  generalize hsized : (if info.nbytes ≤ a.mblk.nbytes then a
    else { a with mblk := a.mblk.grow info.nbytes fun _ => 0 }) = sized at hfits ⊢
  have hfields : sized.name = a.name ∧ sized.mblk.mblkId = a.mblk.mblkId ∧
      sized.mblk.flags = a.mblk.flags ∧
      (a.mblk.bufAllocated = true → sized.mblk.bufAllocated = true) ∧
      sized.mblk.nbytes = max a.mblk.nbytes info.nbytes := by
    rw [← hsized]
    split
    · exact ⟨rfl, rfl, rfl, id, (max_eq_left (by assumption)).symm⟩
    · refine ⟨rfl, rfl, rfl, fun _ => rfl, ?_⟩
      exact (max_eq_right (not_le.mp (by assumption)).le).symm
  have hlinked : sized.LinkedTo (ends.link e) (osShort info.mblkId) (ends.mode e a b) := by
    rw [hinfo.mblkId]
    by_cases hbuffers : a.HasBuffers
    · rw [if_pos (hle.trans (hpaired.larger hbuffers))] at hsized
      rw [← hsized]
      exact hpaired.linked
    · unfold LinkedBlock.HasBuffers at hbuffers
      rw [not_or, not_not, not_not] at hbuffers
      have hempty : sized.sbufs = [] ∧ sized.tbufs = [] := by
        rw [← hsized]
        split <;> exact hbuffers
      refine ⟨hfits, ?_, ?_⟩
      · rw [hempty.1]
        exact fun _ hmem => by cases hmem
      · rw [hempty.2]
        exact fun _ hmem => by cases hmem
  obtain ⟨hsname, hsid, hsflags, hsalloc, hsbytes⟩ := hfields
  have hmode : ends.mode e a b = ends.mode e sized b :=
    (ConnectionEnds.mode_congr rfl hsflags).symm
  have hstatic : sized.mblk.flags.static = true → sized.mblk.flags.bidirectional = false := by
    rw [hsflags]
    exact h.static
  have hlinked := hlinked.link hmode hinfo.flags hstatic
  have hmblk := sized.link_mblk (ends.link e) ends.bidirectionalMblks info
  have hlname := sized.link_name (ends.link e) ends.bidirectionalMblks info
  generalize sized.link (ends.link e) ends.bidirectionalMblks info = linked at hlinked hmblk hlname ⊢
  have hgrows : a.Grows peers linked :=
    { name := hlname.trans hsname
      mblkId := by rw [hmblk, hsid]
      flags := by rw [hmblk, hsflags]
      bufAllocated := by
        rw [hmblk]
        exact hsalloc
      nbytes := by
        rw [hmblk, hsbytes]
        exact le_max_left _ _
      bound := fun b' hb' hname' => by
        rw [hmblk, hsbytes, honly b' hb' hname']
        omega }
  refine ⟨hgrows, ?_⟩
  exact
    { fits := hlinked.fits
      static := by
        rw [hgrows.flags]
        exact h.static
      unlinked := fun _ => ⟨b, hb, hnamed.trans hgrows.name.symm⟩
      paired := by
        intro b' hb' hname'
        obtain rfl := honly b' hb' (hname'.trans hgrows.name)
        rw [hinfo.mblkId] at hlinked
        exact
          { linked := by
              rw [ConnectionEnds.mode_congr rfl hgrows.flags]
              exact hlinked
            larger := fun _ => by
              have := hinfo.grown a ha hnamed.symm
              rw [hmblk, hsbytes]
              omega
            compatible :=
              { direction := by
                  rw [hgrows.flags]
                  exact hpaired.compatible.direction
                resizable := fun hlt => by
                  have hle := hgrows.nbytes
                  obtain ⟨hallow, halloc⟩ := hpaired.compatible.resizable (by omega)
                  rw [hgrows.flags]
                  exact ⟨hallow, hgrows.bufAllocated halloc⟩ } } }

theorem ModeInvariant.mbinfoReceived (h : ModeInvariant ends s) {info : MemoryBlockInfo}
    {permissions : InfoPermissions} (draws : List ℕ) (fresh newbuf : Mem)
    (hinfo : info ∈ s.infos (!e))
    (hbidirectional : permissions.bidirectionalMblks = ends.bidirectionalMblks)
    (hfound : (s.root e).findBlock info.name < (s.root e).mblks.length ∨
      permissions.dynamicMblks = false) :
    ModeInvariant ends
      (s.setRoot e
        ((s.root e).mbinfoReceived (ends.link e) permissions info draws fresh
          (some newbuf))) := by
  unfold Root.mbinfoReceived
  cases permissions.authorized with
  | false =>
      rw [if_pos (by decide)]
      exact h.setRoot (List.forall₂_same.mpr fun a _ => LinkedBlock.Grows.refl _ a) (h.blocks e)
  | true =>
      rw [if_neg (by decide)]
      -- No block is created.
      have hexisting : (if (s.root e).findBlock info.name < (s.root e).mblks.length then s.root e
          else if permissions.dynamicMblks then
            (s.root e).initializeMemoryBlock info.params draws fresh
          else s.root e) = s.root e := by
        rcases hfound with hlt | hdynamic
        · rw [if_pos hlt]
        · rw [hdynamic]
          split <;> rfl
      dsimp only
      rw [hexisting, hbidirectional]
      apply h.modify
      intro a ha
      obtain ⟨b, hb, hinfo⟩ := h.infos (!e) info hinfo
      rw [Bool.not_not] at hinfo
      have hmem := List.mem_of_getElem? ha
      exact (h.blocks e a hmem).linked hmem hb (h.blocks (!e) b hb).fits.size
        (h.addressable (!e)).names hinfo (Root.findBlock_name ha) newbuf

theorem ModeInvariant.sendInfo (h : ModeInvariant ends s) {block : LinkedBlock}
    (hblock : block ∈ (s.root e).mblks) :
    ModeInvariant ends
      { s with infos := Function.update s.infos e (block.mbinfo :: s.infos e) } := by
  refine ⟨h.addressable, h.blocks, bool_cases e ?_ ?_, h.frames⟩
  · intro info hinfo
    dsimp only at hinfo
    rw [Function.update_self] at hinfo
    rcases List.mem_cons.mp hinfo with rfl | hold
    · exact ⟨block, hblock, rfl, rfl, ⟨rfl, rfl, rfl⟩, le_rfl, fun _ _ _ => le_max_left _ _⟩
    · exact h.infos e info hold
  · intro info hinfo
    dsimp only at hinfo
    rw [Function.update_of_ne (by cases e <;> decide)] at hinfo
    exact h.infos (!e) info hinfo

theorem ModeInvariant.step {t : ConnectedRoots} (h : ModeInvariant ends s)
    (hstep : ModeStep ends s t) : ModeInvariant ends t := by
  cases hstep with
  | sendInfo e block hblock => exact h.sendInfo hblock
  | mbinfoReceived e info permissions draws fresh newbuf hinfo hbidirectional hfound =>
      exact h.mbinfoReceived draws fresh newbuf hinfo hbidirectional hfound
  | transfer e pos action hallowed => exact h.transfer hallowed
  | makeDataFrame e pos index block sbuf sbuf' con con' frame hblock hsbuf hused hmake =>
      exact h.makeDataFrame hblock hsbuf hused hmake
  | dataFrameReceived e frame authorized hframe => exact h.dataFrameReceived hframe

theorem ModeStart.invariant (h : ModeStart s) (hcompatible : s.Compatible ends) :
    ModeInvariant ends s where
  addressable := h.addressable
  blocks := by
    intro e a ha
    obtain ⟨hsbufs, htbufs⟩ := h.unlinked e a ha
    have hfits : a.Fits := by
      refine ⟨h.sizes e a ha, ?_, ?_⟩
      · rw [hsbufs]
        exact fun _ hmem => by cases hmem
      · rw [htbufs]
        exact fun _ hmem => by cases hmem
    have hnone : ¬a.HasBuffers := by
      rintro (hsome | hsome)
      · exact hsome hsbufs
      · exact hsome htbufs
    refine ⟨hfits, hcompatible.static e a ha, fun hhas => absurd hhas hnone, ?_⟩
    intro b hb hname
    refine ⟨⟨hfits, ?_, ?_⟩, fun hhas => absurd hhas hnone, hcompatible.blocks e a ha b hb hname⟩
    · rw [hsbufs]
      exact fun _ hmem => by cases hmem
    · rw [htbufs]
      exact fun _ hmem => by cases hmem
  infos := by
    intro e info hinfo
    rw [h.infos e] at hinfo
    cases hinfo
  frames := by
    intro e frame hframe
    rw [h.frames e] at hframe
    cases hframe

theorem ModeInvariant.linksAgree (h : ModeInvariant ends s) : s.LinksAgree ends where
  links := by
    intro e a ha b hb sbuf hsbuf tbuf htbuf _ _ haddressed
    have hagrees := h.blocks e a ha
    obtain ⟨b', hb', hname'⟩ := hagrees.unlinked (.inl (List.ne_nil_of_mem hsbuf))
    have hpaired := hagrees.paired b' hb' hname'
    have hsource := hpaired.linked.sbufs sbuf hsbuf
    have hsmall : b'.mblk.mblkId ≤ 0x7FFF :=
      (h.addressable (!e)).small _ (List.mem_map.mpr ⟨b', hb', rfl⟩)
    have hsame : b' = b := by
      apply List.inj_on_of_nodup_map (h.addressable (!e)).ids hb' hb
      rw [← haddressed, hsource.remote, osShort_of_le hsmall]
      unfold osUint
      omega
    subst b'
    -- Each of the blocks is as large as the other one.
    have hback := h.blocks (!e) b hb
    rw [Bool.not_not] at hback
    have hpaired' := hback.paired a ha hname'.symm
    have htarget := hpaired'.linked.tbufs tbuf htbuf
    have hfits := hback.fits.tbufs tbuf htbuf
    have hsize : b.mblk.nbytes = a.mblk.nbytes :=
      le_antisymm (hpaired.larger (.inl (List.ne_nil_of_mem hsbuf)))
        (hpaired'.larger (.inr (List.ne_nil_of_mem htbuf)))
    have hmode : sbuf.syncbuf.bidirectional = tbuf.syncbuf.bidirectional := by
      rw [hsource.mode, htarget.mode, hpaired.compatible.mode_eq]
    rw [hsize] at hfits
    exact
      { mode := hmode
        nbytes := by
          rw [hsource.nbytes, hfits.consistent.nbytes, hfits.ndata, ← hmode, hsource.mode]
        ndata := fun hbuf => by
          rw [(hagrees.fits.sbufs sbuf hsbuf).ndata hbuf, hfits.ndata]
        accepted := fun hused con con' sbuf' frame hmake => by
          have hlies := makeDataFrame_liesWithin hmake hsource.range hused
          rw [hmode] at hlies
          exact TargetBuffer.storeFrame_accepted hfits hlies }
  frames := by
    intro e frame hframe b hb tbuf htbuf _ hid
    have hframe' : frame ∈ s.frames (!!e) := by
      rw [Bool.not_not]
      exact hframe
    obtain ⟨a, ha, hname, -, hlies⟩ := h.addressed hframe' hb hid
    have hagrees := h.blocks (!e) b hb
    have htarget := (hagrees.paired a ha hname).linked.tbufs tbuf htbuf
    have hlies := hlies (.inr (List.ne_nil_of_mem htbuf))
    rw [← htarget.mode] at hlies
    exact TargetBuffer.storeFrame_accepted (hagrees.fits.tbufs tbuf htbuf) hlies

end Steps

/-- In every run, the two ends of a link agree on change bits and sizes, and
the target buffer accepts the data frames of the source buffer. -/
theorem transfer_modes_agree {ends : ConnectionEnds} {s₀ s : ConnectedRoots}
    (hstart : ModeStart s₀) (hcompatible : s₀.Compatible ends)
    (hrun : Relation.ReflTransGen (ModeStep ends) s₀ s) : s.LinksAgree ends := by
  have hinvariant : ModeInvariant ends s :=
    TransitionSystem.invariant_of_run (ModeInvariant ends) (fun _ _ h hstep => h.step hstep)
      (hstart.invariant hcompatible) hrun
  exact hinvariant.linksAgree

/-! ## Links which do not agree -/

def unlinkedBlock (flags : MblkFlags) (nbytes : ℤ) : LinkedBlock where
  name := ⟨"exp", "gina", 1, "iocafenet"⟩
  dynamic := false
  mblk := ⟨8, flags, nbytes, true, fun _ => 0⟩
  sbufs := []
  tbufs := []

/-- Two roots with a block of one name, of `n` bytes at the end which connects
upwards and of `m` bytes at the other end. -/
def pairedRoots (flags : MblkFlags) (n m : ℤ) : ConnectedRoots where
  root := fun e => ⟨9, [unlinkedBlock flags (if e then n else m)]⟩
  infos := fun _ => []
  frames := fun _ => []

def ConnectedRoots.exchange (ends : ConnectionEnds) (s : ConnectedRoots) (e : Bool)
    (block : LinkedBlock) : ConnectedRoots :=
  let sent := { s with infos := Function.update s.infos e (block.mbinfo :: s.infos e) }
  sent.setRoot (!e)
    ((sent.root (!e)).mbinfoReceived (ends.link (!e)) ⟨true, false, ends.bidirectionalMblks⟩
      block.mbinfo [] (fun _ => 0) (some fun _ => 0))

theorem ConnectedRoots.exchange_run {ends : ConnectionEnds} {s : ConnectedRoots} {e : Bool}
    {block : LinkedBlock} (hblock : block ∈ (s.root e).mblks) :
    Relation.ReflTransGen (ModeStep ends) s (s.exchange ends e block) := by
  refine .tail (.single (.sendInfo s e block hblock)) ?_
  apply ModeStep.mbinfoReceived
  · rw [Bool.not_not]
    dsimp only
    rw [Function.update_self]
    exact List.mem_cons_self
  · rfl
  · exact .inr rfl

def pairedEnds : ConnectionEnds := ⟨fun _ => 0, true⟩

def exchangedRoots (flags : MblkFlags) (n m : ℤ) : ConnectedRoots :=
  let told := (pairedRoots flags n m).exchange pairedEnds true (unlinkedBlock flags n)
  told.exchange pairedEnds false ((told.root false).mblks.headD (unlinkedBlock flags m))

theorem pairedRoots_start (flags : MblkFlags) {n m : ℤ} (hn : BlockSize n) (hm : BlockSize m) :
    ModeStart (pairedRoots flags n m) where
  addressable := fun _ => ⟨List.nodup_singleton _, List.nodup_singleton _, by
    intro id hid
    rw [List.mem_singleton.mp hid]
    change 8 ≤ 0x7FFF
    decide⟩
  sizes := by
    intro e block hblock
    rw [List.mem_singleton.mp hblock]
    cases e
    · exact hm
    · exact hn
  unlinked := by
    intro e block hblock
    rw [List.mem_singleton.mp hblock]
    exact ⟨rfl, rfl⟩
  infos := fun _ => rfl
  frames := fun _ => rfl

theorem exchangedRoots_run (flags : MblkFlags) (n m : ℤ)
    (hblock : (((pairedRoots flags n m).exchange pairedEnds true
      (unlinkedBlock flags n)).root false).mblks ≠ []) :
    Relation.ReflTransGen (ModeStep pairedEnds) (pairedRoots flags n m)
      (exchangedRoots flags n m) := by
  refine .trans (ConnectedRoots.exchange_run List.mem_cons_self)
    (ConnectedRoots.exchange_run ?_)
  rw [List.headD_eq_head?_getD, List.head?_eq_some_head hblock]
  exact List.head_mem hblock

def upFlags : MblkFlags := ⟨false, true, true, false, false⟩

def upAndDownFlags : MblkFlags := ⟨true, true, true, false, false⟩

def staticDownFlags : MblkFlags := ⟨true, false, true, false, true⟩

def ConnectedRoots.linkUp (s : ConnectedRoots) : Option (MemoryBlock × SourceBuffer × TargetBuffer) :=
  match (s.root true).mblks, (s.root false).mblks with
  | a :: _, b :: _ =>
      match a.sbufs, b.tbufs with
      | sbuf :: _, tbuf :: _ =>
          if sbuf.clink.con = 0 ∧ tbuf.clink.con = 0 ∧
              osUint sbuf.remoteMblkId = b.mblk.mblkId then
            some (a.mblk, sbuf, tbuf)
          else none
      | _, _ => none
  | _, _ => none

theorem ConnectedRoots.LinksAgree.linkUp {s : ConnectedRoots} {mblk : MemoryBlock}
    {sbuf : SourceBuffer} {tbuf : TargetBuffer} (h : s.LinksAgree pairedEnds)
    (hlink : s.linkUp = some (mblk, sbuf, tbuf)) : LinkAgrees mblk sbuf tbuf := by
  unfold ConnectedRoots.linkUp at hlink
  split at hlink
  next a _ b _ ha hb =>
    split at hlink
    next sbuf' _ tbuf' _ hsbufs htbufs =>
      split at hlink
      next hids =>
        cases hlink
        refine h.links true a ?_ b ?_ sbuf ?_ tbuf ?_ hids.1 hids.2.1 hids.2.2
        · rw [ha]
          exact List.mem_cons_self
        · change b ∈ (s.root false).mblks
          rw [hb]
          exact List.mem_cons_self
        · rw [hsbufs]
          exact List.mem_cons_self
        · rw [htbufs]
          exact List.mem_cons_self
      next => cases hlink
    next => cases hlink
  next => cases hlink

theorem blockSize_small {n : ℤ} (h0 : 0 ≤ n) (hn : n ≤ 40) : BlockSize n := by
  refine ⟨h0, ?_⟩
  unfold transferBytes
  rw [if_pos rfl]
  omega

/-- Blocks of equal sizes which are not transferred both ways are compatible. -/
theorem pairedRoots_compatible {flags : MblkFlags} (n : ℤ) (hstatic : flags.static = false)
    (honeWay : (flags.up && flags.down) = false) :
    (pairedRoots flags n n).Compatible pairedEnds where
  static := by
    intro e a ha hset
    rw [List.mem_singleton.mp ha] at hset
    exact absurd hset (by
      change ¬flags.static = true
      rw [hstatic]
      decide)
  blocks := by
    intro e a ha b hb _
    have hflags : a.mblk.flags = flags ∧ b.mblk.flags = flags := by
      rw [List.mem_singleton.mp ha, List.mem_singleton.mp hb]
      exact ⟨rfl, rfl⟩
    have hnbytes : a.mblk.nbytes = n ∧ b.mblk.nbytes = n := by
      rw [List.mem_singleton.mp ha, List.mem_singleton.mp hb]
      cases e <;> exact ⟨rfl, rfl⟩
    constructor
    · rw [hflags.1, hflags.2, Bool.and_self flags.up, Bool.and_self flags.down, Bool.and_assoc,
        honeWay, Bool.and_false]
    · intro hlt
      omega

theorem transfer_modes_agree_exchangedRoots :
    (exchangedRoots upFlags 24 24).LinksAgree pairedEnds ∧
      (exchangedRoots upFlags 24 24).linkUp.isSome = true := by
  refine ⟨?_, by decide⟩
  exact transfer_modes_agree
    (pairedRoots_start upFlags (blockSize_small (by decide) (by decide))
      (blockSize_small (by decide) (by decide)))
    (pairedRoots_compatible 24 rfl rfl) (exchangedRoots_run upFlags 24 24 (by decide))

/-- Sizes which cannot be made equal, static blocks marked for transfer with change
bits, and blocks which are transferred both ways give links which do not agree. -/
theorem transfer_modes_do_not_always_agree :
    (∃ s₀ s, ModeStart s₀ ∧ Relation.ReflTransGen (ModeStep pairedEnds) s₀ s ∧
      ∃ mblk sbuf tbuf, s.linkUp = some (mblk, sbuf, tbuf) ∧
        sbuf.syncbuf.nbytes = 40 ∧ tbuf.syncbuf.nbytes = 24 ∧ ¬s.LinksAgree pairedEnds) ∧
    ∀ flags, flags = staticDownFlags ∨ flags = upAndDownFlags →
      ∃ s₀ s, ModeStart s₀ ∧ Relation.ReflTransGen (ModeStep pairedEnds) s₀ s ∧
        ∃ mblk sbuf tbuf, s.linkUp = some (mblk, sbuf, tbuf) ∧
          sbuf.syncbuf.bidirectional = false ∧ tbuf.syncbuf.bidirectional = true ∧
          ¬s.LinksAgree pairedEnds := by
  have hsize : ∀ n : ℤ, n = 24 ∨ n = 40 → BlockSize n := fun n hn =>
    blockSize_small (by omega) (by omega)
  constructor
  · refine ⟨_, _, pairedRoots_start upFlags (hsize 40 (.inr rfl)) (hsize 24 (.inl rfl)),
      exchangedRoots_run upFlags 40 24 (by decide), _, _, _, rfl, rfl, rfl, fun h => ?_⟩
    exact absurd (h.linkUp rfl).nbytes (by decide)
  · rintro flags (rfl | rfl)
    · refine ⟨_, _, pairedRoots_start staticDownFlags (hsize 24 (.inl rfl)) (hsize 24 (.inl rfl)),
        exchangedRoots_run staticDownFlags 24 24 (by decide), _, _, _, rfl, rfl, rfl, fun h => ?_⟩
      exact absurd (h.linkUp rfl).mode (by decide)
    · refine ⟨_, _, pairedRoots_start upAndDownFlags (hsize 24 (.inl rfl)) (hsize 24 (.inl rfl)),
        exchangedRoots_run upAndDownFlags 24 24 (by decide), _, _, _, rfl, rfl, rfl, fun h => ?_⟩
      exact absurd (h.linkUp rfl).mode (by decide)

end Iocom
