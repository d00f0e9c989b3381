import Iocom.Lib.Overwrite
import Mathlib.Tactic.Ring

/-!
# Bricks over a ring buffer stream

A brick is a header and the bytes of an uncompressed image.  The sending end keeps one
brick in its buffer and writes it piecemeal to a stream; the receiving end looks at
the header before it takes anything from the stream, and then collects the brick.
-/

namespace Iocom

open Buffer

/-- `IOC_MAX_BRICK_WIDTH`, `IOC_MAX_BRICK_HEIGHT`, `IOC_MAX_BRICK_ALLOC`. -/
def maxBrickWidth : ℕ := 50000
def maxBrickHeight : ℕ := 3000
def maxBrickAlloc : ℕ := maxBrickWidth * maxBrickHeight * 3

/-- The formats of the list in `osal_validate_brick_header`. -/
inductive BrickFormat where
  | grayscale8
  | grayscale16
  | rgb24
  | rgba32
  deriving DecidableEq

/-- The size given to `ioc_allocate_brick_buffer`, and what is defined outside: the codes
of the formats and `OSAL_BITMAP_BYTES_PER_PIX`, `os_checksum`, and how many bytes
`os_malloc` grants. -/
structure BrickParams where
  bufSz : ℕ
  bufSz_gt : 24 < bufSz
  bufSz_le : bufSz ≤ maxBrickAlloc
  formatCode : BrickFormat → UInt8
  formatCode_ne_zero : ∀ format, formatCode format ≠ 0
  bytesPerPix : UInt8 → ℕ
  bytesPerPix_pos : ∀ format, 1 ≤ bytesPerPix (formatCode format)
  bytesPerPix_le : ∀ format, bytesPerPix (formatCode format) ≤ 4
  checksum : List UInt8 → ℕ
  checksum_lt : ∀ bytes, checksum bytes < 0x10000
  granted : ℕ → ℕ
  le_granted : ∀ n, n ≤ granted n

/-! ## The header -/

def brickHdrInt : ℕ → ℕ → List UInt8
  | 0, _ => []
  | n + 1, x => UInt8.ofNat x :: brickHdrInt n (x / 0x100)

/-- `ioc_get_brick_hdr_int`. -/
def getBrickHdrInt : List UInt8 → ℕ
  | [] => 0
  | b :: bytes => b.toNat + 0x100 * getBrickHdrInt bytes

theorem brickHdrInt_length (n x : ℕ) : (brickHdrInt n x).length = n := by
  induction n generalizing x with
  | zero => rfl
  | succ n ih => rw [brickHdrInt, List.length_cons, ih]

theorem getBrickHdrInt_brickHdrInt {n x : ℕ} (h : x < 0x100 ^ n) :
    getBrickHdrInt (brickHdrInt n x) = x := by
  induction n generalizing x with
  | zero =>
      rw [pow_zero] at h
      exact (Nat.lt_one_iff.mp h).symm
  | succ n ih =>
      rw [pow_succ, Nat.mul_comm] at h
      rw [brickHdrInt, getBrickHdrInt, ih (Nat.div_lt_of_lt_mul h), UInt8.toNat_ofNat']
      omega

/-- `iocBrickHdr`. -/
structure BrickHdr where
  format : UInt8
  compression : UInt8
  checksum : ℕ
  width : ℕ
  height : ℕ
  bufSz : ℕ
  allocSz : ℕ
  tstamp : ℕ

def BrickHdr.bytes (hdr : BrickHdr) : List UInt8 :=
  [hdr.format, hdr.compression] ++ brickHdrInt 2 hdr.checksum ++ brickHdrInt 2 hdr.width ++
    brickHdrInt 2 hdr.height ++ brickHdrInt 4 hdr.bufSz ++ brickHdrInt 4 hdr.allocSz ++
    brickHdrInt 8 hdr.tstamp

theorem BrickHdr.bytes_length (hdr : BrickHdr) : hdr.bytes.length = 24 := by
  unfold BrickHdr.bytes
  simp only [List.length_append, brickHdrInt_length, List.length_cons, List.length_nil]

def brickHdrOf (buf : List UInt8) : BrickHdr where
  format := buf.headD 0
  compression := (buf.drop 1).headD 0
  checksum := getBrickHdrInt ((buf.drop 2).take 2)
  width := getBrickHdrInt ((buf.drop 4).take 2)
  height := getBrickHdrInt ((buf.drop 6).take 2)
  bufSz := getBrickHdrInt ((buf.drop 8).take 4)
  allocSz := getBrickHdrInt ((buf.drop 12).take 4)
  tstamp := getBrickHdrInt ((buf.drop 16).take 8)

def clearBrickChecksum (buf : List UInt8) : List UInt8 := overwrite buf 2 [0, 0]

namespace BrickParams

variable (prm : BrickParams)

/-- The list in `osal_validate_brick_header` ends with 0. -/
def formatList : List UInt8 :=
  [prm.formatCode .grayscale8, prm.formatCode .grayscale16, prm.formatCode .rgb24,
    prm.formatCode .rgba32, 0]

def knownFormat (format : UInt8) : List UInt8 → Bool
  | listed :: next :: rest =>
      if format = listed then true
      else if next = 0 then false
      else knownFormat format (next :: rest)
  | _ => false

/-- `osal_validate_brick_header`; the sizes are too small to overflow. -/
def validateBrickHeader (hdr : BrickHdr) : Bool :=
  if !knownFormat hdr.format prm.formatList then false
  else if hdr.width < 1 ∨ maxBrickWidth < hdr.width ∨ hdr.height < 1 ∨
      maxBrickHeight < hdr.height then false
  else
    let bytesPerPix := prm.bytesPerPix hdr.format
    let maxBrickSz := hdr.width * hdr.height * bytesPerPix + 24
    let maxBrickAlloc := 3 * (maxBrickWidth * maxBrickHeight * bytesPerPix / 2) + 24
    !decide (hdr.bufSz < 1 ∨ maxBrickSz < hdr.bufSz ∨ hdr.allocSz < 1 ∨
      maxBrickAlloc < hdr.allocSz)

/-! ## The sending end -/

/-- What an application gives to `ioc_compress_brick`: an image which fits the buffer,
with the allocation size and the time which end up in its header. -/
structure Brick where
  format : BrickFormat
  w : ℕ
  h : ℕ
  w_pos : 1 ≤ w
  w_le : w ≤ maxBrickWidth
  h_pos : 1 ≤ h
  h_le : h ≤ maxBrickHeight
  data : List UInt8
  data_length : data.length = w * h * prm.bytesPerPix (prm.formatCode format)
  fits : data.length + 24 ≤ prm.bufSz
  hdr : BrickHdr
  allocSz_pos : 1 ≤ hdr.allocSz
  allocSz_le : hdr.allocSz ≤
    3 * (maxBrickWidth * maxBrickHeight * prm.bytesPerPix (prm.formatCode format) / 2) + 24
  time : ℕ

/-- The fields of `iocBrickBuffer` which the sending end uses. -/
structure BrickSender where
  buf : List UInt8
  bufN : ℕ
  pos : ℕ
  deriving DecidableEq

/-- `ioc_allocate_brick_buffer`, for a new brick buffer. -/
def allocateBrickBuffer : BrickSender where
  buf := List.replicate prm.bufSz 0
  bufN := 0
  pos := 0

/-- `ioc_ready_for_new_brick`. -/
def readyForNewBrick (b : BrickSender) : Bool := decide (b.bufN = 0)

variable {prm}

/-- `ioc_compress_brick_ring` without compression. -/
def compressBrickRing (b : BrickSender) (brick : prm.Brick) : BrickSender :=
  let size := brick.w * brick.h * prm.bytesPerPix (prm.formatCode brick.format)
  let sz := if prm.bufSz < size + 24 then prm.bufSz - 24 else size
  let hdr :=
    { brick.hdr with
      format := prm.formatCode brick.format
      compression := 0
      checksum := 0
      width := brick.w
      height := brick.h
      bufSz := sz + 24
      tstamp := brick.time }
  let buf := overwrite b.buf 0 (hdr.bytes ++ brick.data.take sz)
  { b with
    buf := overwrite buf 2 (brickHdrInt 2 (prm.checksum (buf.take (sz + 24))))
    bufN := sz + 24 }

/-- `ioc_send_brick_data`, where the stream takes as many bytes as `accepted` allows. -/
def sendBrickData (accepted : ℕ) (b : BrickSender) : BrickSender × List UInt8 :=
  let written :=
    if b.pos < b.bufN then ((b.buf.drop b.pos).take (b.bufN - b.pos)).take accepted else []
  let pos := b.pos + written.length
  ({ b with pos := pos, bufN := if b.bufN ≤ pos then 0 else b.bufN }, written)

/-- `ioc_run_brick_send` with an open stream; without data it keeps the stream alive. -/
def runBrickSend (accepted : ℕ) (b : BrickSender) : BrickSender × List UInt8 :=
  if b.pos < b.bufN then sendBrickData accepted b else (b, [])

/-! ## The receiving end -/

/-- The fields of `iocBrickBuffer` which the receiving end uses; `buf` is empty as long as
no memory has been allocated. -/
structure BrickReceiver where
  buf : List UInt8
  bufSz : ℕ
  pos : ℕ
  deriving DecidableEq

inductive BrickStatus where
  | success
  | completed
  | failed
  | checksumError
  deriving DecidableEq

/-- What a call does: how many bytes it takes from the stream, and the bricks with
which it calls `receive_callback`. -/
structure BrickCall where
  receiver : BrickReceiver
  status : BrickStatus
  read : ℕ
  received : List (List UInt8)

/-- `ioc_receive_ring_brick_data` after the header has been looked at. -/
def readBrick (prm : BrickParams) (b : BrickReceiver) (stream : List UInt8) : BrickCall :=
  let data := stream.take (b.bufSz - b.pos)
  let buf := overwrite b.buf b.pos data
  let pos := b.pos + data.length
  if pos < b.bufSz then ⟨{ b with buf := buf, pos := pos }, .success, data.length, []⟩
  else
    let checksum := (brickHdrOf buf).checksum
    let buf := clearBrickChecksum buf
    if prm.checksum (buf.take b.bufSz) ≠ checksum then
      ⟨{ b with buf := buf, pos := pos }, .checksumError, data.length, []⟩
    else ⟨{ b with buf := buf, pos := 0 }, .completed, data.length, [buf.take b.bufSz]⟩

def allocateFor (prm : BrickParams) (b : BrickReceiver) (bufSz : ℕ) : BrickReceiver :=
  let allocSz := bufSz ||| 0x0FFF
  { b with
    bufSz := bufSz
    buf := if b.buf.length < allocSz then List.replicate (prm.granted allocSz) 0 else b.buf }

/-- `ioc_receive_ring_brick_data`; a read gives what the stream has, up to what is asked
for, and `OSAL_STREAM_PEEK` leaves it there. -/
def receiveRingBrickData (prm : BrickParams) (b : BrickReceiver) (stream : List UInt8) :
    BrickCall :=
  if b.pos < 24 then
    let first := stream.take 24
    if first.length < 24 then ⟨b, .success, 0, []⟩
    else if !prm.validateBrickHeader (brickHdrOf first) then ⟨b, .failed, 0, []⟩
    else prm.readBrick (prm.allocateFor b (brickHdrOf first).bufSz) stream
  else prm.readBrick b stream

end BrickParams

/-! ## Both ends -/

open BrickParams

/-- Both ends and the stream: what has been written to it, how much of that has been
delivered, and how much the receiving end has taken. -/
structure BrickTransfer where
  sender : BrickSender
  receiver : BrickReceiver
  stored : List (List UInt8)
  written : List UInt8
  delivered : ℕ
  taken : ℕ
  received : List (List UInt8)
  failed : Bool
  deriving DecidableEq

def initialBrickTransfer (prm : BrickParams) : BrickTransfer where
  sender := prm.allocateBrickBuffer
  receiver := ⟨[], 0, 0⟩
  stored := []
  written := []
  delivered := 0
  taken := 0
  received := []
  failed := false

inductive TransportAction where
  | send (accepted : ℕ)
  | deliver (n : ℕ)
  | receive
  deriving DecidableEq

inductive BrickAction (prm : BrickParams) where
  | store (brick : prm.Brick)
  | transport (action : TransportAction)

def BrickParams.BrickSender.brick (b : BrickSender) : List UInt8 :=
  clearBrickChecksum (b.buf.take b.bufN)

def BrickTransfer.transport (prm : BrickParams) (t : BrickTransfer) :
    TransportAction → BrickTransfer
  | .send accepted =>
      let sent := runBrickSend accepted t.sender
      { t with sender := sent.1, written := t.written ++ sent.2 }
  | .deliver n => { t with delivered := min (t.delivered + n) t.written.length }
  | .receive =>
      if t.failed then t
      else
        let call := prm.receiveRingBrickData t.receiver
          ((t.written.take t.delivered).drop t.taken)
        { t with
          receiver := call.receiver
          taken := t.taken + call.read
          received := t.received ++ call.received
          failed := decide (call.status = .failed ∨ call.status = .checksumError) }

def BrickTransfer.step {prm : BrickParams} (t : BrickTransfer) :
    BrickAction prm → BrickTransfer
  | .store brick =>
      if readyForNewBrick t.sender then
        let sender := compressBrickRing t.sender brick
        { t with sender := sender, stored := t.stored ++ [sender.brick] }
      else t
  | .transport action => t.transport prm action

def BrickTransfer.run {prm : BrickParams} (t : BrickTransfer)
    (actions : List (BrickAction prm)) : BrickTransfer :=
  actions.foldl BrickTransfer.step t

end Iocom
