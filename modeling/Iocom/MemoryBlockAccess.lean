import Iocom.TargetBuffer

/-!
# Access to memory blocks

The application's side of `ioc_memory_block.c`: `ioc_write` stores bytes and
marks them as changed in every source buffer of the block, `ioc_send` takes
snapshots, and `ioc_receive` hands completed snapshots to the block and echoes
them to the block's source buffers.
-/

namespace Iocom

def MemoryBlock.contents (mblk : MemoryBlock) : List UInt8 :=
  Segment.segment mblk.buf 0 mblk.nbytes.toNat

/-- The number of bytes `ioc_write` stores at an address. -/
def MemoryBlock.writeCount (mblk : MemoryBlock) (addr : ℤ) (n : ℕ) : ℕ :=
  min n (mblk.nbytes - addr).toNat

def MemoryBlock.store (mblk : MemoryBlock) (addr : ℤ) (data : List UInt8) :
    MemoryBlock :=
  { mblk with
    buf := Segment.combineAt (fun _ new => new) mblk.buf addr
      (data.take (mblk.writeCount addr data.length)) }

/-- `ioc_write` of some bytes. -/
def write (mblk : MemoryBlock) (sbufs : List SourceBuffer) (addr : ℤ)
    (data : List UInt8) : MemoryBlock × List SourceBuffer :=
  if mblk.nbytes - addr ≤ 0 then (mblk, sbufs)
  else
    let stored := mblk.store addr data
    (stored,
      sbufs.map fun sbuf =>
        sbuf.invalidate stored addr
          (addr + mblk.writeCount addr data.length - 1))

/-- `ioc_send`. -/
def send (mblk : MemoryBlock) (sbufs : List SourceBuffer) : List SourceBuffer :=
  sbufs.map fun sbuf => sbuf.synchronize mblk

/-- Echoing received bytes to a bidirectional source buffer: the loop over the
pending range, invalidating the bytes whose change bit is set. -/
def echoBytes (changed : ℤ → Bool) (mblk : MemoryBlock) :
    ℕ → ℤ → SourceBuffer → SourceBuffer
  | 0, _, sbuf => sbuf
  | n + 1, i, sbuf =>
      echoBytes changed mblk n (i + 1)
        (if changed i then sbuf.invalidate mblk i i else sbuf)

/-- Whether received data is kept from a source buffer: it belongs to the same
connection and the same remote block, and the connection leads downwards. -/
def SourceBuffer.skipsEcho (sbuf : SourceBuffer) (tbuf : TargetBuffer) : Bool :=
  decide (sbuf.clink.con = tbuf.clink.con) &&
    decide (sbuf.remoteMblkId = tbuf.remoteMblkId) && !sbuf.clink.connectUp

/-- The echo of the pending range of a bidirectional target buffer to one
source buffer of the memory block. -/
def SourceBuffer.echo
    (sbuf : SourceBuffer) (mblk : MemoryBlock) (tbuf : TargetBuffer) :
    SourceBuffer :=
  let sync := tbuf.syncbuf
  if sbuf.skipsEcho tbuf then sbuf
  else if sbuf.syncbuf.bidirectional then
    echoBytes (changeBit sync.buf sync.ndata) mblk
      (sync.bufEndAddr - sync.bufStartAddr + 1).toNat sync.bufStartAddr sbuf
  else sbuf.invalidate mblk sync.bufStartAddr sync.bufEndAddr

/-- The memory block after one target buffer's turn in `ioc_receive_nolock`. -/
def MemoryBlock.copyReceived
    (mblk : MemoryBlock) (sync : SynchronizedTargetBuffer) : MemoryBlock :=
  { mblk with
    buf :=
      if sync.bidirectional then
        fun i =>
          if (sync.bufStartAddr ≤ i ∧ i ≤ sync.bufEndAddr) ∧
              changeBit sync.buf sync.ndata i then
            sync.buf i
          else mblk.buf i
      else
        Segment.copyRange mblk.buf sync.buf sync.bufStartAddr sync.bufEndAddr }

/-- The target buffer after its turn: the change bits of the pending range are
cleared, whole bytes at a time. -/
def SynchronizedTargetBuffer.finishReceive
    (sync : SynchronizedTargetBuffer) : SynchronizedTargetBuffer :=
  { sync with
    buf :=
      if sync.bidirectional then
        clearRange sync.buf (sync.ndata + sync.bufStartAddr / 8)
          (sync.ndata + sync.bufEndAddr / 8)
      else sync.buf
    bufUsed := false }

/-- One round of the loop of `ioc_receive_nolock` over the target buffers. -/
def receiveTargetBuffer
    (mblk : MemoryBlock) (sbufs : List SourceBuffer) (tbuf : TargetBuffer) :
    MemoryBlock × List SourceBuffer × TargetBuffer :=
  if tbuf.syncbuf.bufUsed then
    let received := mblk.copyReceived tbuf.syncbuf
    (received,
      sbufs.map fun sbuf =>
        if tbuf.syncbuf.bidirectional then sbuf.echo received tbuf
        else
          sbuf.invalidate received tbuf.syncbuf.bufStartAddr
            tbuf.syncbuf.bufEndAddr,
      { tbuf with syncbuf := tbuf.syncbuf.finishReceive })
  else (mblk, sbufs, tbuf)

/-- `ioc_receive_nolock`: the target buffers of the block take turns. -/
def receive
    (mblk : MemoryBlock) (sbufs : List SourceBuffer) :
    List TargetBuffer → MemoryBlock × List SourceBuffer × List TargetBuffer
  | [] => (mblk, sbufs, [])
  | tbuf :: tbufs =>
      if mblk.flags.static then (mblk, sbufs, tbuf :: tbufs)
      else
        let turn := receiveTargetBuffer mblk sbufs tbuf
        let rest := receive turn.1 turn.2.1 tbufs
        (rest.1, rest.2.1, turn.2.2 :: rest.2.2)

theorem MemoryBlock.contents_eq_iff {a b : MemoryBlock}
    (hnbytes : a.nbytes = b.nbytes) :
    a.contents = b.contents ↔
      ∀ i, 0 ≤ i → i < a.nbytes → a.buf i = b.buf i := by
  unfold MemoryBlock.contents
  rw [← hnbytes, Segment.segment_eq_iff]
  constructor
  · intro h i h0 hn
    exact h i h0 (by omega)
  · intro h i h0 hn
    exact h i h0 (by omega)

theorem MemoryBlock.store_of_outside
    (mblk : MemoryBlock) (addr : ℤ) (data : List UInt8) {i : ℤ}
    (hout : i < addr ∨ addr + mblk.writeCount addr data.length ≤ i) :
    (mblk.store addr data).buf i = mblk.buf i := by
  have hlen : (data.take (mblk.writeCount addr data.length)).length =
      mblk.writeCount addr data.length := by
    simp only [List.length_take, MemoryBlock.writeCount]
    omega
  unfold MemoryBlock.store
  exact Segment.combineAt_of_outside (fun _ new => new) mblk.buf addr
    (data.take (mblk.writeCount addr data.length)) (by rw [hlen]; exact hout)

end Iocom
