import Iocom.MemoryBlock
import Iocom.Lib.Ring

/-!
# Data stream through a memory block

The ring buffer of a streamer: how the writer moves the head and the reader
the tail (`ioc_streamer.c`).
-/

namespace Iocom

/-- What `ioc_streamer_write_internal` works with: the ring buffer, the head
and what remains of the data to write.  `moved` is what `ioc_move_array` has
stored. -/
structure RingWriter where
  buffer : Mem
  head : ℤ
  rest : List UInt8
  moved : List UInt8
  nbytes : ℤ

/-- `wrnow` bytes are moved to the head. -/
def RingWriter.move (writer : RingWriter) (wrnow : ℤ) : RingWriter where
  buffer := Segment.combineAt (fun _ new => new) writer.buffer writer.head
    (writer.rest.take wrnow.toNat)
  head := writer.head + wrnow
  rest := writer.rest.drop wrnow.toNat
  moved := writer.moved ++ writer.rest.take wrnow.toNat
  nbytes := writer.nbytes + wrnow

def RingWriter.writeToEnd (writer : RingWriter) (bufSz tail : ℤ) : RingWriter :=
  if tail ≤ writer.head then
    let space := if tail = 0 then bufSz - writer.head - 1 else bufSz - writer.head
    let wrnow := min space writer.rest.length
    if 0 < wrnow then
      let moved := writer.move wrnow
      { moved with head := if bufSz ≤ moved.head then 0 else moved.head }
    else writer
  else writer

def RingWriter.writeToTail (writer : RingWriter) (tail : ℤ) : RingWriter :=
  if writer.head < tail then
    let wrnow := min (tail - writer.head - 1) writer.rest.length
    if 0 < wrnow then writer.move wrnow else writer
  else writer

/-- `ioc_streamer_write_internal`.  The head is published if bytes were
written. -/
def streamerWriteInternal
    (buffer : Mem) (bytes : List UInt8) (bufSz head tail : ℤ) : RingWriter :=
  ((RingWriter.mk buffer head bytes [] 0).writeToEnd bufSz tail).writeToTail tail

/-- What `ioc_streamer_read_internal` works with; `moved` is what was read to
the caller's buffer. -/
structure RingReader where
  ltail : ℤ
  n : ℤ
  moved : List UInt8
  nbytes : ℤ

/-- `rdnow` bytes are read from the tail on. -/
def RingReader.move (reader : RingReader) (view : Mem) (rdnow : ℤ) : RingReader where
  ltail := reader.ltail + rdnow
  n := reader.n - rdnow
  moved := reader.moved ++ Segment.segment view reader.ltail rdnow.toNat
  nbytes := reader.nbytes + rdnow

/-- The data from the tail on to the end of the buffer.  It is `none` when the
buffer is not connected. -/
def RingReader.readToEnd
    (reader : RingReader) (view : Mem) (bufSz head : ℤ) (connected : Bool) :
    Option RingReader :=
  if head < reader.ltail then
    let rdnow := min (bufSz - reader.ltail) reader.n
    if 0 < rdnow then
      if connected then
        let moved := reader.move view rdnow
        some { moved with ltail := if bufSz ≤ moved.ltail then 0 else moved.ltail }
      else none
    else some reader
  else some reader

def RingReader.readToHead
    (reader : RingReader) (view : Mem) (head : ℤ) (connected : Bool) : Option RingReader :=
  if reader.ltail < head then
    let rdnow := min (head - reader.ltail) reader.n
    if 0 < rdnow then
      if connected then some (reader.move view rdnow) else none
    else some reader
  else some reader

/-- `ioc_streamer_read_internal`; `none` stands for -1.  The buffer can lose the
connection between the two moves. -/
def streamerReadInternal
    (view : Mem) (bufSz n head tail : ℤ) (connected : Bool × Bool) : Option RingReader := do
  let reader ← (RingReader.mk tail n [] 0).readToEnd view bufSz head connected.1
  reader.readToHead view head connected.2

/-- `ioc_streamer_tx_available`, when the tail is connected. -/
def streamerTxAvailable (bufSz head tail : ℤ) : ℤ :=
  if tail < 0 ∨ bufSz ≤ tail then -1
  else
    let bufferedBytes := if head - tail < 0 then head - tail + bufSz else head - tail
    bufSz - bufferedBytes - 1

end Iocom
