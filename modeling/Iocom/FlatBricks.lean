import Iocom.Bricks
import Iocom.ArrayRoundTrip

/-!
# Bricks in a flat buffer

A brick which fits is written as a whole to the signals of a memory block: the data, the
checksum, the header and the number of bytes.  The receiving end reads it out of the
signals which have been transferred to it.
-/

namespace Iocom

open Buffer

/-- With the signals' processor, and `os_checksum` which goes on from the checksum of the
bytes before. -/
structure FlatBrickParams extends BrickParams where
  processor : SignalProcessor
  connected_ne : processor.connected ≠ 0
  useJpegLibrary : Bool
  appendChecksum : ℕ → List UInt8 → ℕ
  appendChecksum_checksum : ∀ a b, appendChecksum (checksum a) b = checksum (a ++ b)

/-- The signals of an assembly for a flat buffer, in one memory block.  The checksum and the
number of bytes are of types which hold them. -/
structure FlatBrickSignals (p : SignalProcessor) (nbytes : ℤ) where
  cs : Signal
  buf : Signal
  head : Signal
  state : Signal
  cs_integer : cs.typeId.isInteger = true
  head_integer : head.typeId.isInteger = true
  state_integer : state.typeId.isInteger = true
  buf_byte : buf.typeId = .char ∨ buf.typeId = .uchar
  cs_holds : ∀ checksum : ℕ, checksum < 0x10000 → cs.typeId.InRange p.signedChar checksum
  head_holds : ∀ n : ℕ, n ≤ buf.n → head.typeId.InRange p.signedChar n
  buf_n_lt : buf.n < 2147483648
  inside : ∀ s ∈ [cs, buf, head, state], 0 ≤ s.addr ∧ s.addr + s.nroSignalBytes ≤ nbytes
  disjoint : [cs, buf, head, state].Pairwise Signal.Disjoint

/-! ## The sending end -/

inductive FlatBrickStatus where
  | success
  | outOfBuffer
  | notSupported
  | memoryAllocationFailed
  deriving DecidableEq

/-- A call of `ioc_compress_brick_flat` with a buffer signal of `bufN` elements.  `memory`
and `jpeg` are what `os_malloc` and `os_compress_JPEG` do in this call; the compressed
image fits the memory it is given. -/
structure FlatBrickCall (bufN : ℕ) where
  hdr : BrickHdr
  data : List UInt8
  format : UInt8
  w : ℕ
  h : ℕ
  compression : UInt8
  memory : Bool
  jpeg : Option (List UInt8)
  jpeg_fits : ∀ bytes ∈ jpeg, bytes.length + 24 ≤ bufN
  time : ℕ

namespace FlatBrickCall

variable {bufN : ℕ} (call : FlatBrickCall bufN) (prm : FlatBrickParams)

/-- The compression, with `IOC_DEFAULT_COMPRESSION` resolved. -/
def usedCompression : UInt8 :=
  if call.compression = 0x7F then
    if prm.useJpegLibrary then 0x80 else call.hdr.compression
  else call.compression

/-- `compression & IOC_JPEG`. -/
def usesJpeg : Bool := call.usedCompression prm &&& 0x80 ≠ 0

def copyOrCompress : Except FlatBrickStatus (UInt8 × List UInt8) :=
  if call.usesJpeg prm then
    if call.hdr.compression &&& 0x80 ≠ 0 then
      if bufN < call.data.length + 24 then .error .outOfBuffer
      else .ok (call.hdr.compression, call.data)
    else if !prm.useJpegLibrary then .error .notSupported
    else if !call.memory then .error .memoryAllocationFailed
    else
      match call.jpeg with
      | none => .error .outOfBuffer
      | some bytes => .ok (0x80, bytes)
  else
    -- the size is set for the JPEG library only
    let bufSz := 0
    let sz := call.w * call.h * prm.bytesPerPix call.format
    if bufSz < sz + 24 then .error .outOfBuffer else .ok (0, call.data)

def header (compression : UInt8) (sz checksum : ℕ) : BrickHdr :=
  { call.hdr with
    format := call.format
    compression := compression
    checksum := checksum
    width := call.w
    height := call.h
    bufSz := sz + 24
    tstamp := call.time }

end FlatBrickCall

namespace FlatBrickParams

variable (prm : FlatBrickParams)

/-- `ioc_set_ext` with `OSAL_STATE_CONNECTED`. -/
def setExt (block : LinkedBlock) (signal : Signal) (value : ℕ) : LinkedBlock :=
  (block.moveSignal prm.processor.osal signal ⟨value, prm.processor.connected⟩).1

/-- `ioc_move_array` with `IOC_SIGNAL_WRITE` and `OSAL_STATE_CONNECTED`, for an array of
bytes. -/
def writeArray (block : LinkedBlock) (signal : Signal) (offset : ℕ) (array : List UInt8) :
    LinkedBlock :=
  (block.moveArray prm.processor.osal signal offset
    (signal.orderedArray prm.processor array) array.length prm.processor.connected).1

variable {nbytes : ℤ} (signals : FlatBrickSignals prm.processor nbytes)

def brickChecksum (hdr : BrickHdr) (data : List UInt8) : ℕ :=
  prm.appendChecksum (prm.checksum hdr.bytes) data

def storeFlatBrick (block : LinkedBlock) (frameCount : ℕ) (call : FlatBrickCall signals.buf.n)
    (compression : UInt8) (data : List UInt8) : LinkedBlock :=
  let checksum := prm.brickChecksum (call.header compression data.length 0) data
  let block := prm.writeArray block signals.buf 24 data
  let block := prm.setExt block signals.cs checksum
  let block := prm.writeArray block signals.buf 0
    (call.header compression data.length checksum).bytes
  let block := prm.setExt block signals.head (data.length + 24)
  prm.setExt block signals.state frameCount

/-- `flat_frame_count` is never zero. -/
def nextFrameCount (frameCount : ℕ) : ℕ :=
  if (frameCount + 1) % 0x10000 = 0 then 1 else (frameCount + 1) % 0x10000

/-- `ioc_compress_brick_flat`. -/
def compressBrickFlat (block : LinkedBlock) (frameCount : ℕ)
    (call : FlatBrickCall signals.buf.n) : FlatBrickStatus × LinkedBlock × ℕ :=
  match call.copyOrCompress prm with
  | .error status => (status, block, frameCount)
  | .ok (compression, data) =>
      (.success,
        prm.storeFlatBrick signals block (nextFrameCount frameCount) call compression data,
        nextFrameCount frameCount)

/-! ## The receiving end -/

/-- The buffer of the receiving end, which is allocated when it is needed. -/
structure FlatReceiver where
  buf : Option (List UInt8)
  bufSz : ℕ

def FlatReceiver.failed : FlatReceiver := ⟨none, 0⟩

/-- Memory for `n` bytes, unless there is enough. -/
def flatBuffer (b : FlatReceiver) (n : ℕ) (memory : Bool) : Option (List UInt8) :=
  match b.buf with
  | some buf =>
      if buf.length < n then
        if memory then some (List.replicate (prm.granted n) 0) else none
      else some buf
  | none => if memory then some (List.replicate (prm.granted n) 0) else none

/-- `ioc_process_flat_brick_data`: the brick with which `receive_callback` is called. -/
def processFlatBrickData (b : FlatReceiver) (block : LinkedBlock) (memory : Bool) :
    FlatReceiver × Option (List UInt8) :=
  let head := block.getSignal prm.processor signals.head false
  let n := osInt head.value
  if n ≤ 24 ∨ head.stateBits &&& prm.processor.connected = 0 then (.failed, none)
  else
    let hdr := brickHdrOf
      (block.getArray prm.processor signals.buf 0 (List.replicate 24 0) 24 false).1
    if osInt hdr.bufSz ≠ n ∨ !prm.validateBrickHeader hdr then (.failed, none)
    else
      match prm.flatBuffer b n.toNat memory with
      | none => (.failed, none)
      | some buf =>
          let buf := clearBrickChecksum
            (block.getArray prm.processor signals.buf 0 buf n.toNat false).1
          let checksum := (block.getSignal prm.processor signals.cs true).value % 0x10000
          if checksum ≠ prm.checksum (buf.take n.toNat) then (.failed, none)
          else (⟨some buf, n.toNat⟩, some (buf.take n.toNat))

end FlatBrickParams

/-! ## Both ends -/

structure FlatBrickAssembly (prm : FlatBrickParams) where
  nbytes : ℤ
  signals : FlatBrickSignals prm.processor nbytes
  sender : LinkedBlock
  receiver : LinkedBlock
  sender_nbytes : sender.mblk.nbytes = nbytes
  receiver_nbytes : receiver.mblk.nbytes = nbytes
  receiver_target : receiver.tbufs ≠ []

/-- The blocks and the buffer of the receiving end.  `stored` is the brick which has been
stored last, with its checksum set to zero, and `got` what of it has been transferred. -/
structure FlatBrickTransfer where
  sender : LinkedBlock
  frameCount : ℕ
  receiver : LinkedBlock
  buffer : FlatBrickParams.FlatReceiver
  stored : Option (List UInt8)
  got : Option (List UInt8)

def FlatBrickSignals.Holds {p : SignalProcessor} {nbytes : ℤ} (signals : FlatBrickSignals p nbytes)
    (i : ℤ) : Prop :=
  ∃ s ∈ [signals.cs, signals.buf, signals.head, signals.state],
    s.addr ≤ i ∧ i < s.addr + s.nroSignalBytes

instance {p : SignalProcessor} {nbytes : ℤ} (signals : FlatBrickSignals p nbytes) (i : ℤ) :
    Decidable (signals.Holds i) := by
  unfold FlatBrickSignals.Holds
  infer_instance

inductive FlatBrickAction (bufN : ℕ) where
  | store (call : FlatBrickCall bufN)
  | deliver
  | receive (memory : Bool)

namespace FlatBrickAssembly

variable {prm : FlatBrickParams} (a : FlatBrickAssembly prm)

def initial : FlatBrickTransfer where
  sender := a.sender
  frameCount := 0
  receiver := a.receiver
  buffer := .failed
  stored := none
  got := none

def storedBrick (call : FlatBrickCall a.signals.buf.n) (compression : UInt8)
    (data : List UInt8) : List UInt8 :=
  (call.header compression data.length 0).bytes ++ data

def step (t : FlatBrickTransfer) : FlatBrickAction a.signals.buf.n → FlatBrickTransfer
  | .store call =>
      let result := prm.compressBrickFlat a.signals t.sender t.frameCount call
      { t with
        sender := result.2.1
        frameCount := result.2.2
        stored :=
          match call.copyOrCompress prm with
          | .error _ => t.stored
          | .ok (compression, data) => some (a.storedBrick call compression data) }
  | .deliver =>
      { t with
        receiver := { t.receiver with
          mblk.buf := fun i =>
            if a.signals.Holds i then t.sender.mblk.buf i else t.receiver.mblk.buf i }
        got := t.stored }
  | .receive memory =>
      { t with
        buffer := (prm.processFlatBrickData a.signals t.buffer t.receiver memory).1 }

end FlatBrickAssembly

end Iocom
