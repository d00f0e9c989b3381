import Iocom.Root
import Iocom.Lib.MemoryLedger
import Iocom.Lib.Registry

/-!
# The objects of a root and their memory

Connections, memory blocks, source and target buffers allocate what they need by
`ioc_malloc` and give it back by `ioc_free`, where the size is worked out again.
The memory behind these two is a parameter: a static pool or the operating system.
What is transferred, names and threads have no part in this.
-/

namespace Iocom

open MemoryLedger

/-- Where `ioc_malloc` gets memory from, and `ioc_free` returns it. -/
class IocHeap (H : Type) where
  malloc : H → ℤ → Option ℤ × H
  free : H → ℤ → ℤ → H

/-- Sizes of structures and frames.  The smallest block which may be allocated has
the size of `iocFreeBlk`. -/
structure PoolSizes where
  freeBlk : ℤ
  connection : ℤ
  memoryBlock : ℤ
  sourceBuffer : ℤ
  targetBuffer : ℤ
  socketFrame : ℤ
  serialFrame : ℤ
  freeBlk_pos : 0 < freeBlk
  freeBlk_le_mblk : freeBlk ≤ minMblkSz
  freeBlk_le_object : freeBlk ≤ connection ∧ freeBlk ≤ memoryBlock ∧
    freeBlk ≤ sourceBuffer ∧ freeBlk ≤ targetBuffer
  freeBlk_le_frame : freeBlk ≤ socketFrame ∧ freeBlk ≤ serialFrame

/-- Sizes on a computer with 64 bits. -/
def poolSizes64 : PoolSizes where
  freeBlk := 24
  connection := 2000
  memoryBlock := 300
  sourceBuffer := 120
  targetBuffer := 120
  socketFrame := 1392
  serialFrame := 96
  freeBlk_pos := by decide
  freeBlk_le_mblk := by decide
  freeBlk_le_object := by decide
  freeBlk_le_frame := by decide

structure FrameBuffer where
  buf : Option ℤ
  allocated : Bool
  deriving DecidableEq

/-- A connection; `object` is its memory when it was `allocated`. -/
structure PoolConnection where
  id : ℕ
  object : Option ℤ
  frameSz : ℤ
  frameOut : FrameBuffer
  frameIn : FrameBuffer
  connectUp : Bool
  stream : Option ℕ
  listener : Bool
  deriving DecidableEq

/-- A memory block; the content is known when the buffer is set or cleared. -/
structure PoolMblk where
  id : ℕ
  object : Option ℤ
  buf : Option ℤ
  bufAllocated : Bool
  nbytes : ℤ
  flags : MblkFlags
  dynamic : Bool
  content : Option (List UInt8)
  deriving DecidableEq

/-- The size of a synchronized buffer: with bit marks behind the data when transfer is
bidirectional. -/
def PoolMblk.syncNbytes (mblk : PoolMblk) (bidirectional : Bool) : ℤ :=
  if bidirectional then osInt (mblk.nbytes + (mblk.nbytes + 7).tdiv 8) else mblk.nbytes

structure PoolBuffer where
  id : ℕ
  con : ℕ
  mblk : ℕ
  object : ℤ
  buf : Option ℤ
  nbytes : ℤ
  bidirectional : Bool
  deriving DecidableEq

/-- The root and the objects in its lists.  `calls` are those of the memory
functions so far, the latest first. -/
structure PoolRoot (H : Type) where
  heap : H
  calls : List Call
  con : List PoolConnection
  mblk : List PoolMblk
  sbuf : List PoolBuffer
  tbuf : List PoolBuffer
  nextId : ℕ

def PoolRoot.start {H : Type} (heap : H) : PoolRoot H := ⟨heap, [], [], [], [], [], 0⟩

inductive PoolStatus where
  | success
  | completed
  | notSupported
  | failed
  | memoryAllocationFailed
  deriving DecidableEq

namespace PoolRoot

variable {H : Type} [IocHeap H]

/-! ## Memory -/

/-- `ioc_malloc`. -/
def malloc (root : PoolRoot H) (request : ℤ) : Option ℤ × PoolRoot H :=
  ((IocHeap.malloc root.heap request).1,
    { root with
      heap := (IocHeap.malloc root.heap request).2
      calls := .malloc request (IocHeap.malloc root.heap request).1 :: root.calls })

/-- `ioc_free`: a null block is nothing to free. -/
def free (root : PoolRoot H) (block : Option ℤ) (bytes : ℤ) : PoolRoot H :=
  match block with
  | none => root
  | some block =>
      { root with
        heap := IocHeap.free root.heap block bytes
        calls := .free block bytes :: root.calls }

/-- `os_memclear` and `os_memcpy`. -/
def touch (root : PoolRoot H) (buf : Option ℤ) : PoolRoot H :=
  { root with calls := .touch buf :: root.calls }

def findCon (root : PoolRoot H) (k : ℕ) : Option PoolConnection :=
  Registry.lookup PoolConnection.id k root.con

def findMblk (root : PoolRoot H) (k : ℕ) : Option PoolMblk :=
  Registry.lookup PoolMblk.id k root.mblk

def modifyCon (root : PoolRoot H) (k : ℕ) (f : PoolConnection → PoolConnection) : PoolRoot H :=
  { root with con := Registry.modify PoolConnection.id k f root.con }

def modifyMblk (root : PoolRoot H) (k : ℕ) (f : PoolMblk → PoolMblk) : PoolRoot H :=
  { root with mblk := Registry.modify PoolMblk.id k f root.mblk }

def removeCon (root : PoolRoot H) (k : ℕ) : PoolRoot H :=
  { root with con := Registry.remove PoolConnection.id k root.con }

def removeMblk (root : PoolRoot H) (k : ℕ) : PoolRoot H :=
  { root with mblk := Registry.remove PoolMblk.id k root.mblk }

def removeSbuf (root : PoolRoot H) (k : ℕ) : PoolRoot H :=
  { root with sbuf := Registry.remove PoolBuffer.id k root.sbuf }

def removeTbuf (root : PoolRoot H) (k : ℕ) : PoolRoot H :=
  { root with tbuf := Registry.remove PoolBuffer.id k root.tbuf }

def joinCon (root : PoolRoot H) (con : ℕ → PoolConnection) : PoolRoot H :=
  { root with con := root.con ++ [con root.nextId], nextId := root.nextId + 1 }

def joinMblk (root : PoolRoot H) (mblk : ℕ → PoolMblk) : PoolRoot H :=
  { root with mblk := root.mblk ++ [mblk root.nextId], nextId := root.nextId + 1 }

def joinSbuf (root : PoolRoot H) (sbuf : ℕ → PoolBuffer) : PoolRoot H :=
  { root with sbuf := root.sbuf ++ [sbuf root.nextId], nextId := root.nextId + 1 }

def joinTbuf (root : PoolRoot H) (tbuf : ℕ → PoolBuffer) : PoolRoot H :=
  { root with tbuf := root.tbuf ++ [tbuf root.nextId], nextId := root.nextId + 1 }

/-- The structure of an object: memory of the application, or allocated and cleared. -/
def takeObject (root : PoolRoot H) (static : Bool) (size : ℤ) :
    Option (Option ℤ) × PoolRoot H :=
  if static then (some none, root)
  else
    match root.malloc size with
    | (none, root) => (none, root)
    | (some object, root) => (some (some object), root.touch (some object))

/-! ## Source and target buffers -/

variable (sizes : PoolSizes)

/-- `ioc_initialize_source_buffer`. -/
def initializeSourceBuffer (root : PoolRoot H) (con : ℕ) (mblk : PoolMblk)
    (bidirectional : Bool) : Option ℕ × PoolRoot H :=
  match root.malloc sizes.sourceBuffer with
  | (none, root) => (none, root)
  | (some object, root) =>
      let root := root.touch (some object)
      if mblk.flags.static then
        (some root.nextId, root.joinSbuf
          fun id => ⟨id, con, mblk.id, object, none, mblk.nbytes, false⟩)
      else
        let nbytes := mblk.syncNbytes bidirectional
        match root.malloc (2 * nbytes) with
        | (none, root) => (none, root.free (some object) sizes.sourceBuffer)
        | (some buf, root) =>
            (some root.nextId, (root.touch (some buf)).joinSbuf
              fun id => ⟨id, con, mblk.id, object, some buf, nbytes, bidirectional⟩)

/-- `ioc_release_source_buffer`: here the size is an `os_int`. -/
def releaseSourceBuffer (root : PoolRoot H) (k : ℕ) : PoolRoot H :=
  match Registry.lookup PoolBuffer.id k root.sbuf with
  | none => root
  | some sbuf =>
      ((root.removeSbuf k).free sbuf.buf (osInt (2 * sbuf.nbytes))).free
        (some sbuf.object) sizes.sourceBuffer

/-- `ioc_initialize_target_buffer`: the content of the block is copied. -/
def initializeTargetBuffer (root : PoolRoot H) (con : ℕ) (mblk : PoolMblk)
    (bidirectional : Bool) : Option ℕ × PoolRoot H :=
  match root.malloc sizes.targetBuffer with
  | (none, root) => (none, root)
  | (some object, root) =>
      let root := root.touch (some object)
      let nbytes := mblk.syncNbytes bidirectional
      match root.malloc (2 * nbytes) with
      | (none, root) => (none, root.free (some object) sizes.targetBuffer)
      | (some buf, root) =>
          (some root.nextId, ((root.touch (some buf)).touch mblk.buf).joinTbuf
            fun id => ⟨id, con, mblk.id, object, some buf, nbytes, bidirectional⟩)

/-- `ioc_release_target_buffer`. -/
def releaseTargetBuffer (root : PoolRoot H) (k : ℕ) : PoolRoot H :=
  match Registry.lookup PoolBuffer.id k root.tbuf with
  | none => root
  | some tbuf =>
      ((root.removeTbuf k).free tbuf.buf (2 * tbuf.nbytes)).free
        (some tbuf.object) sizes.targetBuffer

def releaseSourceBuffers (root : PoolRoot H) (buffers : List PoolBuffer) : PoolRoot H :=
  buffers.foldl (fun root sbuf => root.releaseSourceBuffer sizes sbuf.id) root

def releaseTargetBuffers (root : PoolRoot H) (buffers : List PoolBuffer) : PoolRoot H :=
  buffers.foldl (fun root tbuf => root.releaseTargetBuffer sizes tbuf.id) root

def links (buffers : List PoolBuffer) (con : ℕ) (mblk : PoolMblk) : Bool :=
  buffers.any fun buffer => decide (buffer.con = con) && decide (buffer.mblk = mblk.id)

/-- `ioc_mbinfo_new_sbuf`.  `ioc_sbuf_synchronize` takes a null source buffer. -/
def mbinfoNewSbuf (root : PoolRoot H) (con : ℕ) (mblk : PoolMblk) (bdflags : Bool) :
    PoolRoot H :=
  if links root.sbuf con mblk then root
  else (root.initializeSourceBuffer sizes con mblk bdflags).2

/-- The target buffers which `ioc_mbinfo_new_tbuf` drops: of a block which is
received from one connection, those of the others. -/
def droppedTbufs (root : PoolRoot H) (mblk : PoolMblk) (bdflags : Bool) : List PoolBuffer :=
  if bdflags then []
  else root.tbuf.filter fun tbuf => decide (tbuf.mblk = mblk.id) && !tbuf.bidirectional

def dropTbufs (root : PoolRoot H) (mblk : PoolMblk) (bdflags : Bool) : PoolRoot H :=
  root.releaseTargetBuffers sizes (root.droppedTbufs mblk bdflags)

/-- `ioc_mbinfo_new_tbuf`. -/
def mbinfoNewTbuf (root : PoolRoot H) (con : ℕ) (mblk : PoolMblk) (bdflags : Bool) :
    PoolRoot H :=
  if links root.tbuf con mblk then root
  else ((root.dropTbufs sizes mblk bdflags).initializeTargetBuffer sizes con mblk bdflags).2

/-! ## Memory blocks -/

end PoolRoot

/-- `iocMemoryBlockParams`; an application's buffer and what is in it. -/
structure PoolMblkParams where
  buf : Option (ℤ × List UInt8)
  nbytes : ℤ
  flags : MblkFlags
  dynamic : Bool

namespace PoolRoot

variable {H : Type} [IocHeap H] (sizes : PoolSizes)

/-- `ioc_initialize_memory_block` once the block has its structure.  An allocated
buffer is not checked for null. -/
def setupMemoryBlock (root : PoolRoot H) (object : Option ℤ) (prm : PoolMblkParams) :
    PoolRoot H :=
  let flags := { prm.flags with bidirectional := prm.flags.bidirectional || !prm.flags.static }
  let clear := fun (root : PoolRoot H) buf => if prm.flags.static then root else root.touch buf
  let content := fun (nbytes : ℤ) (held : Option (List UInt8)) =>
    if prm.flags.static then held else some (List.replicate nbytes.toNat 0)
  match prm.buf with
  | some (buf, held) =>
      (clear root (some buf)).joinMblk fun id =>
        ⟨id, object, some buf, false, prm.nbytes, flags, prm.dynamic,
          content prm.nbytes (some held)⟩
  | none =>
      let nbytes := if prm.nbytes < minMblkSz then minMblkSz else prm.nbytes
      let flags := { flags with allowResize := flags.allowResize || decide (prm.nbytes ≤ 0) }
      let (buf, root) := root.malloc nbytes
      (clear root buf).joinMblk fun id =>
        ⟨id, object, buf, true, nbytes, flags, prm.dynamic, content nbytes none⟩

/-- `ioc_initialize_memory_block`. -/
def initializeMemoryBlock (root : PoolRoot H) (static : Bool) (prm : PoolMblkParams) :
    PoolStatus × PoolRoot H :=
  match root.takeObject static sizes.memoryBlock with
  | (none, root) => (.failed, root)
  | (some object, root) => (.success, root.setupMemoryBlock object prm)

def releaseMblkBuffers (root : PoolRoot H) (k : ℕ) : PoolRoot H :=
  let root := root.releaseSourceBuffers sizes (root.sbuf.filter fun sbuf => decide (sbuf.mblk = k))
  root.releaseTargetBuffers sizes (root.tbuf.filter fun tbuf => decide (tbuf.mblk = k))

/-- `ioc_release_memory_block`. -/
def releaseMemoryBlock (root : PoolRoot H) (k : ℕ) : PoolRoot H :=
  match root.findMblk k with
  | none => root
  | some mblk =>
      let root := (root.releaseMblkBuffers sizes k).removeMblk k
      let root := if mblk.bufAllocated then root.free mblk.buf mblk.nbytes else root
      root.free mblk.object sizes.memoryBlock

def growMblk (mblk : PoolMblk) (buf : ℤ) (nbytes : ℤ) : PoolMblk :=
  { mblk with
    buf := some buf
    bufAllocated := true
    nbytes := nbytes
    content := mblk.content.map (· ++ List.replicate (nbytes - mblk.nbytes).toNat 0) }

/-- `ioc_resize_mblk`; `disconnect` is the flag `IOC_DISCONNECT_MBLK_ON_RESIZE`. -/
def resizeMblk (root : PoolRoot H) (mblk : PoolMblk) (nbytes : ℤ) (disconnect : Bool) :
    PoolStatus × PoolRoot H :=
  if nbytes ≤ mblk.nbytes then (.success, root)
  else if !mblk.flags.allowResize then (.notSupported, root)
  else if !mblk.bufAllocated && mblk.buf.isSome then (.failed, root)
  else
    let root := if disconnect then root.releaseMblkBuffers sizes mblk.id else root
    match root.malloc nbytes with
    | (none, root) => (.memoryAllocationFailed, root)
    | (some newbuf, root) =>
        let root := (root.touch (some newbuf)).free mblk.buf mblk.nbytes
        (.completed, root.modifyMblk mblk.id fun mblk => growMblk mblk newbuf nbytes)

/-- `ioc_resize_memory_block_by_info` for the block found. -/
def resizeMemoryBlockByInfo (root : PoolRoot H) (mblk : PoolMblk) (maxAddr : ℤ) :
    PoolRoot H :=
  let sz := if maxAddr < minMblkSz then minMblkSz else maxAddr
  if mblk.nbytes < sz ∧ mblk.bufAllocated then
    match root.malloc sz with
    | (none, root) => root
    | (some newbuf, root) =>
        let root := ((root.touch (some newbuf)).touch mblk.buf).free mblk.buf mblk.nbytes
        root.modifyMblk mblk.id fun mblk =>
          { mblk with
            buf := some newbuf
            nbytes := sz
            content := none }
  else root

/-! ## Connections -/

/-- `ioc_initialize_connection`. -/
def initializeConnection (root : PoolRoot H) (static : Bool) : Option ℕ × PoolRoot H :=
  match root.takeObject static sizes.connection with
  | (none, root) => (none, root)
  | (some object, root) =>
      (some root.nextId, root.joinCon fun id =>
        ⟨id, object, 0, ⟨none, false⟩, ⟨none, false⟩, false, none, false⟩)

def freeFrame (root : PoolRoot H) (frame : FrameBuffer) (frameSz : ℤ) : PoolRoot H :=
  if frame.allocated then root.free frame.buf frameSz else root

def clearFrame (frame : FrameBuffer) : FrameBuffer :=
  if frame.allocated then ⟨none, false⟩ else frame

/-- `ioc_free_connection_bufs`: both frame buffers have the frame size as it is now. -/
def freeConnectionBufs (root : PoolRoot H) (k : ℕ) : PoolRoot H :=
  match root.findCon k with
  | none => root
  | some con =>
      ((root.freeFrame con.frameOut con.frameSz).freeFrame con.frameIn con.frameSz).modifyCon k
        fun con => { con with
          frameOut := clearFrame con.frameOut
          frameIn := clearFrame con.frameIn }

/-- `ioc_release_dynamic_mblk_if_not_attached` when the block is really deleted. -/
def releaseDynamicMblkIfNotAttached (root : PoolRoot H) (k deletingCon : ℕ) : PoolRoot H :=
  match root.findMblk k with
  | none => root
  | some mblk =>
      let down := fun buffer : PoolBuffer =>
        decide (buffer.mblk = k) && decide (buffer.con ≠ deletingCon) &&
          (root.findCon buffer.con).any fun con => !con.connectUp
      if !mblk.dynamic then root
      else if root.sbuf.any down || root.tbuf.any down then root
      else root.releaseMemoryBlock sizes k

/-- The loop over the source buffers of `ioc_free_source_and_target_bufs`. -/
def freeSourceBufs (con : ℕ) : ℕ → PoolRoot H → PoolRoot H
  | 0, root => root
  | fuel + 1, root =>
      match root.sbuf.find? fun sbuf => decide (sbuf.con = con) with
      | none => root
      | some sbuf =>
          freeSourceBufs con fuel
            ((root.releaseSourceBuffer sizes sbuf.id).releaseDynamicMblkIfNotAttached sizes
              sbuf.mblk con)

def freeTargetBufs (con : ℕ) : ℕ → PoolRoot H → PoolRoot H
  | 0, root => root
  | fuel + 1, root =>
      match root.tbuf.find? fun tbuf => decide (tbuf.con = con) with
      | none => root
      | some tbuf =>
          freeTargetBufs con fuel
            ((root.releaseTargetBuffer sizes tbuf.id).releaseDynamicMblkIfNotAttached sizes
              tbuf.mblk con)

/-- `ioc_free_source_and_target_bufs`, also what a closed connection does. -/
def freeSourceAndTargetBufs (root : PoolRoot H) (con : ℕ) : PoolRoot H :=
  let root := freeSourceBufs sizes con root.sbuf.length root
  freeTargetBufs sizes con root.tbuf.length root

/-- `ioc_release_connection`. -/
def releaseConnection (root : PoolRoot H) (k : ℕ) : PoolRoot H :=
  match root.findCon k with
  | none => root
  | some con =>
      let root := (root.freeSourceAndTargetBufs sizes k).removeCon k
      ((root.freeFrame con.frameOut con.frameSz).freeFrame con.frameIn con.frameSz).free
        con.object sizes.connection

end PoolRoot

/-- `iocConnectionParams`; `newsocket` is a socket accepted by an end point. -/
structure ConnectParams where
  socket : Bool
  connectUp : Bool
  frameOutBuf : Option ℤ
  frameInBuf : Option ℤ
  newsocket : Option ℕ

def PoolSizes.frameSz (sizes : PoolSizes) (socket : Bool) : ℤ :=
  if socket then sizes.socketFrame else sizes.serialFrame

namespace PoolRoot

variable {H : Type} [IocHeap H] (sizes : PoolSizes)

def takeFrame (root : PoolRoot H) (static : Option ℤ) (frameSz : ℤ) :
    Option FrameBuffer × PoolRoot H :=
  match static with
  | some buf => (some ⟨some buf, false⟩, root)
  | none =>
      match root.malloc frameSz with
      | (none, root) => (none, root)
      | (some buf, root) => (some ⟨some buf, true⟩, root)

/-- `ioc_connect`.  The frame size is set before the old buffers are freed. -/
def connect (root : PoolRoot H) (k : ℕ) (prm : ConnectParams) : PoolStatus × PoolRoot H :=
  let frameSz := sizes.frameSz prm.socket
  let root := root.modifyCon k fun con =>
    { con with frameSz := frameSz, connectUp := prm.connectUp, listener := false }
  match (root.freeConnectionBufs k).takeFrame prm.frameOutBuf frameSz with
  | (none, root) => (.memoryAllocationFailed, root)
  | (some frame, root) =>
      let root := (root.touch frame.buf).modifyCon k fun con => { con with frameOut := frame }
      match root.takeFrame prm.frameInBuf frameSz with
      | (none, root) => (.memoryAllocationFailed, root.freeConnectionBufs k)
      | (some frame, root) =>
          (.success, (root.touch frame.buf).modifyCon k fun con =>
            { con with
              frameIn := frame
              stream := if prm.newsocket.isSome then prm.newsocket else con.stream
              listener := prm.newsocket.isSome })

end PoolRoot

/-! ## Operations -/

/-- What an application, a received memory block info or a broken stream makes the
root do. -/
inductive PoolOp where
  | initializeConnection (static : Bool)
  | connect (con : ℕ) (prm : ConnectParams)
  | closeConnection (con : ℕ)
  | releaseConnection (con : ℕ)
  | initializeMemoryBlock (static : Bool) (prm : PoolMblkParams)
  | releaseMemoryBlock (mblk : ℕ)
  | resizeMblk (mblk : ℕ) (nbytes : ℤ) (disconnect : Bool)
  | resizeMemoryBlockByInfo (mblk : ℕ) (maxAddr : ℤ)
  | initializeSourceBuffer (con mblk : ℕ) (bidirectional : Bool)
  | initializeTargetBuffer (con mblk : ℕ) (bidirectional : Bool)
  | mbinfoNewSbuf (con mblk : ℕ) (bdflags : Bool)
  | mbinfoNewTbuf (con mblk : ℕ) (bdflags : Bool)
  | releaseSourceBuffer (sbuf : ℕ)
  | releaseTargetBuffer (tbuf : ℕ)

namespace PoolRoot

variable {H : Type} [IocHeap H] (sizes : PoolSizes)

def linking (root : PoolRoot H) (con mblk : ℕ) (op : PoolMblk → PoolRoot H) : PoolRoot H :=
  match root.findCon con, root.findMblk mblk with
  | some _, some mblk => op mblk
  | _, _ => root

def apply (root : PoolRoot H) : PoolOp → PoolRoot H
  | .initializeConnection static => (root.initializeConnection sizes static).2
  | .connect con prm =>
      if (root.findCon con).isSome then (root.connect sizes con prm).2 else root
  | .closeConnection con => root.freeSourceAndTargetBufs sizes con
  | .releaseConnection con => root.releaseConnection sizes con
  | .initializeMemoryBlock static prm => (root.initializeMemoryBlock sizes static prm).2
  | .releaseMemoryBlock mblk => root.releaseMemoryBlock sizes mblk
  | .resizeMblk mblk nbytes disconnect =>
      match root.findMblk mblk with
      | none => root
      | some mblk => (root.resizeMblk sizes mblk nbytes disconnect).2
  | .resizeMemoryBlockByInfo mblk maxAddr =>
      match root.findMblk mblk with
      | none => root
      | some mblk => root.resizeMemoryBlockByInfo mblk maxAddr
  | .initializeSourceBuffer con mblk bidirectional =>
      root.linking con mblk fun mblk => (root.initializeSourceBuffer sizes con mblk bidirectional).2
  | .initializeTargetBuffer con mblk bidirectional =>
      root.linking con mblk fun mblk => (root.initializeTargetBuffer sizes con mblk bidirectional).2
  | .mbinfoNewSbuf con mblk bdflags =>
      root.linking con mblk fun mblk => root.mbinfoNewSbuf sizes con mblk bdflags
  | .mbinfoNewTbuf con mblk bdflags =>
      root.linking con mblk fun mblk => root.mbinfoNewTbuf sizes con mblk bdflags
  | .releaseSourceBuffer sbuf => root.releaseSourceBuffer sizes sbuf
  | .releaseTargetBuffer tbuf => root.releaseTargetBuffer sizes tbuf

def run (root : PoolRoot H) (ops : List PoolOp) : PoolRoot H :=
  ops.foldl (fun root op => root.apply sizes op) root

/-- Each operation of a run is as `P` demands in the root it finds. -/
def EachStep (P : PoolRoot H → PoolOp → Prop) : PoolRoot H → List PoolOp → Prop
  | _, [] => True
  | root, op :: ops => P root op ∧ EachStep P (root.apply sizes op) ops

end PoolRoot

end Iocom
