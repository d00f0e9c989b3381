import Iocom.DataFrame
import Iocom.MemoryBlockAccess
import Iocom.Lib.TransitionSystem

/-!
# The memory blocks of a root

A root object owns memory blocks; each has the source and target buffers which
link it to connections.  Blocks are created by the application or by a received
memory block info, linked by received infos, and grown by `ioc_resize_mblk` and
by the sizes found in the dynamic device information.
-/

namespace Iocom

def minMblkSz : ℤ := 24
def minUniqueId : ℕ := 8

structure BlockName where
  mblkName : String
  deviceName : String
  deviceNr : ℕ
  networkName : String
  deriving DecidableEq

/-- A memory block together with its linked lists of transfer buffers.
`dynamic` is its flag `IOC_DYNAMIC`. -/
structure LinkedBlock where
  name : BlockName
  dynamic : Bool
  mblk : MemoryBlock
  sbufs : List SourceBuffer
  tbufs : List TargetBuffer

structure Root where
  nextUniqueMblkId : ℕ
  mblks : List LinkedBlock

def initializeRoot : Root where
  nextUniqueMblkId := minUniqueId
  mblks := []

/-- `ioc_get_unique_mblk_id`.  Once the running number has wrapped around, the
identifiers are drawn at random. -/
def Root.getUniqueMblkId (root : Root) (draws : List ℕ) : ℕ :=
  if root.nextUniqueMblkId ≠ 0 then root.nextUniqueMblkId
  else
    (draws.find? fun id =>
      root.mblks.all fun block => decide (block.mblk.mblkId ≠ id)).getD 1

/-- `iocMemoryBlockParams`; `buf` is a buffer given by the application. -/
structure MemoryBlockParams where
  name : BlockName
  dynamic : Bool
  flags : MblkFlags
  nbytes : ℤ
  buf : Option Mem

/-- The block which `ioc_initialize_memory_block` sets up; `fresh` is what an
allocated buffer holds before it is cleared. -/
def MemoryBlockParams.block
    (prm : MemoryBlockParams) (mblkId : ℕ) (fresh : Mem) : LinkedBlock where
  name := prm.name
  dynamic := prm.dynamic
  mblk :=
    { mblkId := mblkId
      flags :=
        { prm.flags with
          bidirectional := prm.flags.bidirectional || !prm.flags.static
          allowResize :=
            prm.flags.allowResize ||
              (prm.buf.isNone && decide (prm.nbytes ≤ 0)) }
      nbytes :=
        if prm.buf.isNone then max prm.nbytes minMblkSz else prm.nbytes
      bufAllocated := prm.buf.isNone
      buf :=
        if prm.flags.static then prm.buf.getD fresh else fun _ => 0 }
  sbufs := []
  tbufs := []

/-- `ioc_initialize_memory_block`. -/
def Root.initializeMemoryBlock
    (root : Root) (prm : MemoryBlockParams) (draws : List ℕ) (fresh : Mem) :
    Root where
  nextUniqueMblkId :=
    if root.nextUniqueMblkId ≠ 0 then (root.nextUniqueMblkId + 1) % 0x100000000
    else 0
  mblks := root.mblks ++ [prm.block (root.getUniqueMblkId draws) fresh]

/-- `ioc_release_memory_block`. -/
def Root.releaseMemoryBlock (root : Root) (pos : ℕ) : Root :=
  { root with mblks := root.mblks.eraseIdx pos }

/-! ## Resizing -/

inductive ResizeStatus where
  | success
  | completed
  | notSupported
  | failed
  | memoryAllocationFailed
  deriving DecidableEq

/-- The block with a larger buffer, which holds `fresh` past the old data. -/
def MemoryBlock.grow (mblk : MemoryBlock) (nbytes : ℤ) (fresh : Mem) :
    MemoryBlock :=
  { mblk with
    nbytes := nbytes
    bufAllocated := true
    buf := fun i => if i < mblk.nbytes then mblk.buf i else fresh i }

/-- `ioc_resize_mblk`; `disconnect` is the flag
`IOC_DISCONNECT_MBLK_ON_RESIZE`, `newbuf` what the allocator returns. -/
def LinkedBlock.resizeMblk
    (block : LinkedBlock) (nbytes : ℤ) (disconnect : Bool)
    (newbuf : Option Mem) : ResizeStatus × LinkedBlock :=
  if nbytes ≤ block.mblk.nbytes then (.success, block)
  else if !block.mblk.flags.allowResize then (.notSupported, block)
  else if !block.mblk.bufAllocated then (.failed, block)
  else
    let released :=
      if disconnect then { block with sbufs := [], tbufs := [] } else block
    match newbuf with
    | none => (.memoryAllocationFailed, released)
    | some _ =>
        (.completed,
          { released with mblk := block.mblk.grow nbytes fun _ => 0 })

/-- The memory blocks which `ioc_resize_memory_block_by_info` looks for. -/
def LinkedBlock.isDescribed
    (block : LinkedBlock) (deviceName : String) (deviceNr : ℕ)
    (mblkName : String) : Bool :=
  decide (block.name.deviceNr = deviceNr) &&
    decide (block.name.deviceName = deviceName) &&
    decide (block.name.mblkName = mblkName)

/-- What `ioc_resize_memory_block_by_info` does with the block it found. -/
def LinkedBlock.resizeByInfo
    (block : LinkedBlock) (maxAddr : ℤ) (newbuf : Option Mem) : LinkedBlock :=
  let sz := max maxAddr minMblkSz
  if block.mblk.nbytes < sz then
    if block.mblk.bufAllocated then
      match newbuf with
      | none => block
      | some fresh => { block with mblk := block.mblk.grow sz fresh }
    else block
  else block

/-- `ioc_resize_memory_block_by_info`, with the names and the first unused
address which the packed JSON has led to. -/
def Root.resizeMemoryBlockByInfo
    (root : Root) (deviceName : String) (deviceNr : ℕ) (mblkName : String)
    (maxAddr : ℤ) (newbuf : Option Mem) : Root :=
  { root with
    mblks :=
      root.mblks.modify
        (root.mblks.findIdx fun block =>
          block.isDescribed deviceName deviceNr mblkName)
        fun block => block.resizeByInfo maxAddr newbuf }

/-! ## Memory block infos -/

/-- `iocMemoryBlockInfo` with the flags of the block at the other end. -/
structure MemoryBlockInfo where
  name : BlockName
  mblkId : ℕ
  nbytes : ℤ
  down : Bool
  up : Bool
  bidirectional : Bool

/-- Flags of a connection which `ioc_mbinfo_received` asks for, and whether
the network of the info is authorized on it. -/
structure InfoPermissions where
  authorized : Bool
  dynamicMblks : Bool
  bidirectionalMblks : Bool

/-- `ioc_mbinfo_new_sbuf`. -/
def LinkedBlock.mbinfoNewSbuf
    (block : LinkedBlock) (con : ConnectionLink) (info : MemoryBlockInfo)
    (bidirectional : Bool) : LinkedBlock :=
  if block.sbufs.any fun sbuf => decide (sbuf.clink.con = con.con) then block
  else
    let sbuf := initializeSourceBuffer con block.mblk (osShort info.mblkId)
      bidirectional
    { block with sbufs := block.sbufs ++ [sbuf.synchronize block.mblk] }

/-- `ioc_mbinfo_new_tbuf`.  A one directional target buffer replaces those the
block has. -/
def LinkedBlock.mbinfoNewTbuf
    (block : LinkedBlock) (con : ConnectionLink) (info : MemoryBlockInfo)
    (bidirectional : Bool) : LinkedBlock :=
  if block.tbufs.any fun tbuf => decide (tbuf.clink.con = con.con) then block
  else
    let kept :=
      if bidirectional then block.tbufs
      else block.tbufs.filter fun tbuf => tbuf.syncbuf.bidirectional
    { block with
      tbufs :=
        kept ++ [initializeTargetBuffer con block.mblk (osShort info.mblkId)
          bidirectional] }

/-- The end of `ioc_mbinfo_received`: linking the block to the connection. -/
def LinkedBlock.link
    (block : LinkedBlock) (con : ConnectionLink) (bidirectionalMblks : Bool)
    (info : MemoryBlockInfo) : LinkedBlock :=
  let up := block.mblk.flags.up && info.up
  let down := block.mblk.flags.down && info.down
  let source := if con.connectUp then up else down
  let target := if con.connectUp then down else up
  let bdflag :=
    bidirectionalMblks && block.mblk.flags.bidirectional && info.bidirectional
  let sourceFlag := bdflag && !(source && con.connectUp)
  let asSource :=
    if source then
      let linked := block.mbinfoNewSbuf con info sourceFlag
      if sourceFlag then linked.mbinfoNewTbuf con info sourceFlag else linked
    else block
  let targetFlag := sourceFlag && !(target && !con.connectUp)
  if target then
    let linked :=
      if targetFlag then asSource.mbinfoNewSbuf con info targetFlag
      else asSource
    linked.mbinfoNewTbuf con info targetFlag
  else asSource

def MemoryBlockInfo.params (info : MemoryBlockInfo) : MemoryBlockParams where
  name := info.name
  dynamic := true
  flags := ⟨info.down, info.up, false, true, false⟩
  nbytes := info.nbytes
  buf := none

def Root.findBlock (root : Root) (name : BlockName) : ℕ :=
  root.mblks.findIdx fun block => decide (block.name = name)

/-- `ioc_mbinfo_received`. -/
def Root.mbinfoReceived
    (root : Root) (con : ConnectionLink) (permissions : InfoPermissions)
    (info : MemoryBlockInfo) (draws : List ℕ) (fresh : Mem)
    (newbuf : Option Mem) : Root :=
  if !permissions.authorized then root
  else
    let pos := root.findBlock info.name
    let created :=
      if pos < root.mblks.length then root
      else if permissions.dynamicMblks then
        root.initializeMemoryBlock info.params draws fresh
      else root
    { created with
      mblks :=
        created.mblks.modify pos fun block =>
          (block.resizeMblk info.nbytes false newbuf).2.link con
            permissions.bidirectionalMblks info }

/-! ## Connections which close -/

def LinkedBlock.isLinkedTo (block : LinkedBlock) (con : ℕ) : Bool :=
  (block.sbufs.any fun sbuf => decide (sbuf.clink.con = con)) ||
    block.tbufs.any fun tbuf => decide (tbuf.clink.con = con)

/-- Whether no connection but a closing one leads down from the block, as
`ioc_release_dynamic_mblk_if_not_attached` checks. -/
def LinkedBlock.isDetachedBy (block : LinkedBlock) (con : ℕ) : Bool :=
  block.dynamic &&
    (block.sbufs.all fun sbuf =>
      decide (sbuf.clink.con = con) || sbuf.clink.connectUp) &&
    block.tbufs.all fun tbuf =>
      decide (tbuf.clink.con = con) || tbuf.clink.connectUp

def LinkedBlock.releaseBuffers (block : LinkedBlock) (con : ℕ) : LinkedBlock :=
  { block with
    sbufs := block.sbufs.filter fun sbuf => decide (sbuf.clink.con ≠ con)
    tbufs := block.tbufs.filter fun tbuf => decide (tbuf.clink.con ≠ con) }

/-- `ioc_free_source_and_target_bufs`: the buffers of the connection are
released, and the dynamic blocks which only it led down from. -/
def Root.freeSourceAndTargetBufs (root : Root) (con : ℕ) : Root :=
  { root with
    mblks :=
      (root.mblks.filter fun block =>
        !(block.isLinkedTo con && block.isDetachedBy con)).map
        fun block => block.releaseBuffers con }

/-! ## Data -/

/-- The position of the block to which a data frame from a connection is
addressed: the identifiers of a root's blocks differ. -/
def Root.addressed (root : Root) (con mblkId : ℕ) : ℕ :=
  root.mblks.findIdx fun block =>
    decide (block.mblk.mblkId = mblkId) &&
      block.tbufs.any fun tbuf => decide (tbuf.clink.con = con)

def LinkedBlock.findTbuf (block : LinkedBlock) (con : ℕ) : ℕ :=
  block.tbufs.findIdx fun tbuf => decide (tbuf.clink.con = con)

/-- `ioc_process_received_data_frame`. -/
def Root.processReceivedDataFrame
    (root : Root) (con : ℕ) (authorized : Bool) (frame : Frame) : Root :=
  if !authorized then root
  else
    { root with
      mblks :=
        root.mblks.modify (root.addressed con frame.mblkId) fun block =>
          { block with
            tbufs :=
              block.tbufs.modify (block.findTbuf con) fun tbuf =>
                (tbuf.storeFrame frame).2 } }

def LinkedBlock.write (block : LinkedBlock) (addr : ℤ) (data : List UInt8) :
    LinkedBlock :=
  let written := Iocom.write block.mblk block.sbufs addr data
  { block with mblk := written.1, sbufs := written.2 }

def LinkedBlock.send (block : LinkedBlock) : LinkedBlock :=
  { block with sbufs := Iocom.send block.mblk block.sbufs }

def LinkedBlock.receive (block : LinkedBlock) : LinkedBlock :=
  let received := Iocom.receive block.mblk block.sbufs block.tbufs
  { block with
    mblk := received.1
    sbufs := received.2.1
    tbufs := received.2.2 }

/-- A data frame is made of the snapshot of one source buffer. -/
def LinkedBlock.makeDataFrame
    (block : LinkedBlock) (pos : ℕ) (con : Connection) : LinkedBlock :=
  { block with
    sbufs :=
      block.sbufs.modify pos fun sbuf =>
        match Iocom.makeDataFrame con block.mblk sbuf with
        | none => sbuf
        | some made => made.2.1 }

/-! ## Runs -/

inductive RootAction where
  | initializeMemoryBlock (prm : MemoryBlockParams) (draws : List ℕ) (fresh : Mem)
  | releaseMemoryBlock (pos : ℕ)
  | mbinfoReceived (con : ConnectionLink) (permissions : InfoPermissions)
      (info : MemoryBlockInfo) (draws : List ℕ) (fresh : Mem)
      (newbuf : Option Mem)
  | resizeMemoryBlockByInfo (deviceName : String) (deviceNr : ℕ)
      (mblkName : String) (maxAddr : ℤ) (newbuf : Option Mem)
  | write (pos : ℕ) (addr : ℤ) (data : List UInt8)
  | send (pos : ℕ)
  | makeDataFrame (pos sbuf : ℕ) (con : Connection)
  | dataFrameReceived (con : ℕ) (authorized : Bool) (frame : Frame)
  | receive (pos : ℕ)
  | connectionClosed (con : ℕ)

def Root.step (root : Root) : RootAction → Root
  | .initializeMemoryBlock prm draws fresh =>
      root.initializeMemoryBlock prm draws fresh
  | .releaseMemoryBlock pos => root.releaseMemoryBlock pos
  | .mbinfoReceived con permissions info draws fresh newbuf =>
      root.mbinfoReceived con permissions info draws fresh newbuf
  | .resizeMemoryBlockByInfo deviceName deviceNr mblkName maxAddr newbuf =>
      root.resizeMemoryBlockByInfo deviceName deviceNr mblkName maxAddr newbuf
  | .write pos addr data =>
      { root with mblks := root.mblks.modify pos fun b => b.write addr data }
  | .send pos => { root with mblks := root.mblks.modify pos LinkedBlock.send }
  | .makeDataFrame pos sbuf con =>
      { root with
        mblks := root.mblks.modify pos fun b => b.makeDataFrame sbuf con }
  | .dataFrameReceived con authorized frame =>
      root.processReceivedDataFrame con authorized frame
  | .receive pos =>
      { root with mblks := root.mblks.modify pos LinkedBlock.receive }
  | .connectionClosed con => root.freeSourceAndTargetBufs con

def Root.ReachedBy (allowed : Root → RootAction → Prop) (root : Root) : Prop :=
  Relation.ReflTransGen
    (fun s t => ∃ action, allowed s action ∧ t = s.step action)
    initializeRoot root

/-- What holds of every block holds of every block after one was changed. -/
theorem forall_mem_modify {α : Type*} {P : α → Prop} {xs : List α} {pos : ℕ}
    {f : α → α} (hall : ∀ x ∈ xs, P x)
    (hf : ∀ x, xs[pos]? = some x → P (f x)) :
    ∀ x ∈ xs.modify pos f, P x := by
  intro x hx
  obtain ⟨i, hi⟩ := List.mem_iff_getElem?.mp hx
  rw [List.getElem?_modify] at hi
  cases hxi : xs[i]? with
  | none => simp [hxi] at hi
  | some y =>
      simp only [hxi, Option.map_eq_map, Option.map_some, Option.some.injEq] at hi
      by_cases hpos : pos = i
      · subst i
        rw [if_pos rfl] at hi
        subst x
        exact hf y hxi
      · rw [if_neg hpos] at hi
        subst x
        exact hall y (List.mem_of_getElem? hxi)

/-- What both ways of linking a buffer keep, `ioc_mbinfo_received` keeps. -/
theorem LinkedBlock.link_rule
    {P : LinkedBlock → Prop} {block : LinkedBlock} (con : ConnectionLink)
    (bidirectionalMblks : Bool) (info : MemoryBlockInfo) (hblock : P block)
    (hsbuf : ∀ b flag, P b → P (b.mbinfoNewSbuf con info flag))
    (htbuf : ∀ b flag, P b → P (b.mbinfoNewTbuf con info flag)) :
    P (block.link con bidirectionalMblks info) := by
  have hsource : ∀ b : LinkedBlock, P b → ∀ flag : Bool,
      P (if flag then (b.mbinfoNewSbuf con info flag).mbinfoNewTbuf con info flag
        else b.mbinfoNewSbuf con info flag) := by
    intro b hb flag
    split
    · exact htbuf _ flag (hsbuf b flag hb)
    · exact hsbuf b flag hb
  have htarget : ∀ b : LinkedBlock, P b → ∀ flag : Bool,
      P ((if flag then b.mbinfoNewSbuf con info flag else b).mbinfoNewTbuf con
        info flag) := by
    intro b hb flag
    split
    · exact htbuf _ flag (hsbuf b flag hb)
    · exact htbuf b flag hb
  unfold LinkedBlock.link
  dsimp only
  generalize (if con.connectUp then block.mblk.flags.up && info.up
    else block.mblk.flags.down && info.down) = source
  generalize (if con.connectUp then block.mblk.flags.down && info.down
    else block.mblk.flags.up && info.up) = target
  cases source <;> cases target <;> simp only [Bool.false_eq_true, if_true, if_false]
  · exact hblock
  · exact htarget block hblock _
  · exact hsource block hblock _
  · exact htarget _ (hsource block hblock _) _

theorem Root.step_modify
    {P : LinkedBlock → Prop} {root : Root} {pos : ℕ} {f : LinkedBlock → LinkedBlock}
    (hall : ∀ block ∈ root.mblks, P block)
    (hf : ∀ block, P block → P (f block)) :
    ∀ block ∈ root.mblks.modify pos f, P block :=
  forall_mem_modify hall fun block hblock =>
    hf block (hall block (List.mem_of_getElem? hblock))

end Iocom
