import Iocom.Connection
import Iocom.FrameCodec

/-!
# Reading frames from a stream

`ioc_read_frame` finds the size of a frame in up to three stages: first the size
of an acknowledgement, then that of the shortest frame, then what the header
tells.  A stream gives any number of the bytes asked for, so a call may end in
the middle of any stage; the next call starts again from the buffered bytes.
-/

namespace Iocom

inductive Message where
  | acknowledge (processedBytes : ℕ)
  | frame (frame : Frame)
  deriving DecidableEq

def ackSizeOf (isSocket : Bool) : ℕ :=
  if isSocket then socketAckSize else serialAckSize

def ackModulusOf (isSocket : Bool) : ℕ :=
  if isSocket then 0x1000000 else 0x10000

/-- The bytes which `ioc_send_acknowledge` sends. -/
def acknowledgeBytes (isSocket : Bool) (rbytes : ℕ) : List UInt8 :=
  UInt8.ofNat acknowledgeByte :: UInt8.ofNat rbytes ::
    UInt8.ofNat (rbytes / 0x100) ::
      if isSocket then [UInt8.ofNat (rbytes / 0x10000)] else []

/-- The processed bytes which a received acknowledgement tells. -/
def acknowledgedBytes (isSocket : Bool) (buf : List UInt8) : ℕ :=
  (buf.getD 1 0).toNat + 0x100 * (buf.getD 2 0).toNat +
    if isSocket then 0x10000 * (buf.getD 3 0).toNat else 0

def Message.encode (checksum : List UInt8 → ℕ) (isSocket : Bool) :
    Message → List UInt8
  | .acknowledge rbytes => acknowledgeBytes isSocket rbytes
  | .frame sent => sent.encode checksum isSocket

/-- `iocReadFrameState`; `buf` holds the `n` bytes read so far. -/
structure ReadFrameState where
  isSocket : Bool
  frameSz : ℤ
  frameNr : ℕ
  buf : List UInt8
  bytesReceived : ℕ
  needed : ℕ
  dataSz : ℕ
  flags : ℕ
  extraFlags : ℕ

/-- How many bytes are needed to go on, by what has been read: the beginning of
the loop of `ioc_read_frame`.  There is none when the frame is too big. -/
def ReadFrameState.expect (rfs : ReadFrameState) : Option ReadFrameState :=
  if (rfs.buf.getD 0 0).toNat = acknowledgeByte ∧ 1 ≤ rfs.buf.length then
    some
      { rfs with
        dataSz := 0
        needed := ackSizeOf rfs.isSocket
        flags := 0 }
  else if headerFieldsEnd rfs.isSocket ≤ rfs.buf.length then
    let fields := readHeader rfs.isSocket rfs.buf
    if rfs.frameSz < fields.needed rfs.isSocket then none
    else
      some
        { rfs with
          dataSz := fields.dataSz
          needed := fields.needed rfs.isSocket
          flags := fields.flags
          extraFlags := fields.extraFlags }
  else if 1 ≤ rfs.buf.length then
    some
      { rfs with
        dataSz := 0xFFFF
        needed := headerFieldsEnd rfs.isSocket + 1
        flags := 0 }
  else
    some
      { rfs with
        dataSz := 0xFFFF
        needed := ackSizeOf rfs.isSocket
        flags := 0 }

/-- The loop of `ioc_read_frame`.  The numbers are how many bytes successive
calls of `osal_stream_read` may give. -/
def readFrameLoop
    (rfs : ReadFrameState) (stream : List UInt8) :
    List ℕ → Option (ReadFrameState × List UInt8)
  | [] => rfs.expect.map fun rfs => (rfs, stream)
  | given :: reads =>
      match rfs.expect with
      | none => none
      | some rfs =>
          if rfs.needed = rfs.buf.length then some (rfs, stream)
          else
            let data := stream.take (min given (rfs.needed - rfs.buf.length))
            let rfs' :=
              { rfs with
                buf := rfs.buf ++ data
                bytesReceived := rfs.bytesReceived + data.length }
            if data ≠ [] ∧ (rfs'.buf.getD 0 0).toNat ≠ acknowledgeByte ∧
                (rfs'.buf.getD 0 0).toNat ≠ rfs.frameNr then none
            else if rfs'.buf.length = rfs'.needed ∧ rfs'.dataSz = 0xFFFF then
              readFrameLoop rfs' (stream.drop data.length) reads
            else some (rfs', stream.drop data.length)

structure FrameIn where
  frameNr : ℕ
  buf : List UInt8

def clearChecksum (buf : List UInt8) : List UInt8 := (buf.set 1 0).set 2 0

/-- `ioc_connection_receive` up to the handling of the received message; `none`
is an error. -/
def connectionReceive
    (checksum : List UInt8 → ℕ) (con : Connection) (frameIn : FrameIn)
    (stream : List UInt8) (reads : List ℕ) :
    Option (Option Message × Connection × FrameIn × List UInt8) :=
  match readFrameLoop ⟨con.isSocket, con.frameSz, frameIn.frameNr, frameIn.buf,
      0, 0, 0, 0, 0⟩ stream reads with
  | none => none
  | some (rfs, stream) =>
      let con' :=
        { con with
          bytesReceived :=
            (con.bytesReceived + rfs.bytesReceived) % 0x100000000 }
      if rfs.buf.length < rfs.needed then
        some (none, con', { frameIn with buf := rfs.buf }, stream)
      else if (rfs.buf.getD 0 0).toNat = acknowledgeByte then
        let processedBytes := acknowledgedBytes con.isSocket rfs.buf
        some (some (.acknowledge processedBytes),
          { con' with processedBytes := processedBytes },
          { frameIn with buf := [] }, stream)
      else
        let crc := (rfs.buf.getD 1 0).toNat + 0x100 * (rfs.buf.getD 2 0).toNat
        let buf := if con.isSocket then rfs.buf else clearChecksum rfs.buf
        if !con.isSocket && decide (crc ≠ checksum buf % 0x10000) then none
        else
          let frame :=
            decodeFrame con.isSocket buf rfs.flags rfs.extraFlags rfs.dataSz
          some (some (.frame frame), con',
            { frameNr := nextFrameNr frame.frameNr, buf := [] }, stream)

/-- Repeated calls, each with the numbers of bytes which the stream gives it:
the messages in the order in which they are handled. -/
def receiveCalls (checksum : List UInt8 → ℕ) :
    Connection → FrameIn → List UInt8 → List (List ℕ) →
      Option (List Message × Connection × FrameIn × List UInt8)
  | con, frameIn, stream, [] => some ([], con, frameIn, stream)
  | con, frameIn, stream, reads :: calls =>
      match connectionReceive checksum con frameIn stream reads with
      | none => none
      | some (message, con, frameIn, stream) =>
          (receiveCalls checksum con frameIn stream calls).map fun rest =>
            (message.toList ++ rest.1, rest.2)

end Iocom
