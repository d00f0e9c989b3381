import Mathlib.Data.Int.Basic

/-!
# Connections

The constants of `ioc_connection.h` and the members of `iocConnection` which
framing and flow control use.  The byte counters are `os_uint`, the limits
are `os_int`.
-/

namespace Iocom

def minFrameSz : ℤ := 96
def maxFrameSz : ℤ := 0x4000
def serialFrameSz : ℤ := 96

def serialAckSize : ℕ := 3
def socketAckSize : ℕ := 4

def serialUnacknowledgedLimit : ℤ := 40
def serialNroAcksToReserve : ℤ := 5
def serialRxBufMinSz : ℤ := 256

def serialMaxInAir : ℤ :=
  serialRxBufMinSz - 1 - serialUnacknowledgedLimit -
    serialNroAcksToReserve * serialAckSize

def serialMaxAckInAir : ℤ := serialRxBufMinSz - 1

def socketUnacknowledgedLimit : ℤ := 500
def socketNroAcksToReserve : ℤ := 5

def socketMaxInAir (frameSz : ℤ) : ℤ := 44 * frameSz

def socketMaxAckInAir (frameSz : ℤ) : ℤ :=
  socketMaxInAir frameSz + socketUnacknowledgedLimit +
    socketNroAcksToReserve * socketAckSize

/-- `IOC_MAX_FRAME_NR`. -/
def maxFrameNr : ℕ := 200

/-- `IOC_ACKNOWLEDGE`, the first byte of an acknowledgement. -/
def acknowledgeByte : ℕ := 255

structure Connection where
  isSocket : Bool
  connectUp : Bool
  frameSz : ℤ
  dstFrameSz : ℤ
  maxInAir : ℤ
  maxAckInAir : ℤ
  unacknowledgedLimit : ℤ
  bytesSent : ℕ
  processedBytes : ℕ
  bytesReceived : ℕ
  bytesAcknowledged : ℕ
  frameOutUsed : ℕ
  frameOutPos : ℕ
  frameOutNr : ℕ
  authenticationSent : Bool
  authenticationReceived : Bool

def Connection.ackSize (con : Connection) : ℕ :=
  if con.isSocket then socketAckSize else serialAckSize

/-- Values of the running byte counter which an acknowledgement can tell
apart: 16 bits of it in serial communication, 24 bits on a socket. -/
def Connection.ackModulus (con : Connection) : ℕ :=
  if con.isSocket then 0x1000000 else 0x10000

/-- `(bytes_sent - processed_bytes) & mask`. -/
def Connection.inAir (con : Connection) : ℕ :=
  (((con.bytesSent : ℤ) - con.processedBytes) % 0x100000000 % con.ackModulus).toNat

/-- `(bytes_received - bytes_acknowledged) & mask`. -/
def Connection.unacknowledged (con : Connection) : ℕ :=
  (((con.bytesReceived : ℤ) - con.bytesAcknowledged) % 0x100000000 %
    con.ackModulus).toNat

/-- The frame number after `frame_nr`. -/
def nextFrameNr (frameNr : ℕ) : ℕ :=
  if maxFrameNr ≤ frameNr then 1 else frameNr + 1

end Iocom
