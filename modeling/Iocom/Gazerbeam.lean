import Mathlib.Data.UInt
import Iocom.Lib.BitGroups

/-!
# Gazerbeam messages

`gazerbeam_decode_message`, from the received bit on: a message begins with a one
after at least 14 zeros, and its characters stand without any framing on the line,
seven bits each.
-/

namespace Iocom

inductive GazerbeamBit
  | zero
  | one
  deriving DecidableEq

def GazerbeamBit.ofBool (b : Bool) : GazerbeamBit := if b then .one else .zero

/-- What `gazerbeam_decode_message` returns. -/
inductive GazerbeamStatus
  | completed
  | success
  | pending
  | checksumError
  | failed
  deriving DecidableEq

/-- The part of `GazerbeamReceiver` which holds messages.  `receivePos` is `none` for
-1. -/
structure GazerbeamReceiver where
  msgbuf : List UInt8
  nZeros : ℕ
  receivePos : Option ℕ
  receiveBit : UInt8
  finshedMessage : List UInt8
  finshedMessageSz : ℕ

/-- `GAZERBEAM_MAX_MSG_SZ`. -/
def gazerbeamMaxMsgSz : ℕ := 128

/-- `LEADING_ZEROES`. -/
def leadingZeroes : ℕ := 14

/-- `initialize_gazerbeam_receiver`. -/
def initializeGazerbeamReceiver : GazerbeamReceiver where
  msgbuf := List.replicate (gazerbeamMaxMsgSz + 3) 0
  nZeros := 0
  receivePos := none
  receiveBit := 0
  finshedMessage := List.replicate gazerbeamMaxMsgSz 0
  finshedMessageSz := 0

/-- `buf[i] = c`; a write outside the buffer has no meaning. -/
def storeChar (buf : List UInt8) (i : ℕ) (c : UInt8) : Option (List UInt8) :=
  if i < buf.length then some (buf.set i c) else none

/-- `n_bytes` without the zero characters at the end of the buffer. -/
def trimmedSize (msgbuf : List UInt8) : ℕ → Option ℕ
  | 0 => some 0
  | n + 1 =>
      if n + 1 < 4 then some (n + 1)
      else do
        let c ← msgbuf[n]?
        if c ≠ 0 then some (n + 1) else trimmedSize msgbuf n

/-- Copies `count` characters from `src[ss]` on to `dst[dd]` on. -/
def copyChars (src : List UInt8) (ss : ℕ) (dst : List UInt8) (dd : ℕ) :
    ℕ → Option (List UInt8)
  | 0 => some dst
  | count + 1 => do
      let c ← src[ss]?
      let dst ← storeChar dst dd c
      copyChars src (ss + 1) dst (dd + 1) count

def receivedCrc (c0 c1 c2 : UInt8) : UInt16 :=
  ((c2.toUInt16 - 1) <<< 6 ||| (c1.toUInt16 - 1)) <<< 6 ||| (c0.toUInt16 - 1)

namespace GazerbeamReceiver

variable (checksum : List UInt8 → UInt16)

/-- The checksum of the received message is verified and the message is moved to
`finshed_message`. -/
def finishMessage (gb : GazerbeamReceiver) (nBytes : ℕ) :
    Option (GazerbeamStatus × GazerbeamReceiver) := do
  let c2 ← gb.msgbuf[2]?
  let c1 ← gb.msgbuf[1]?
  let c0 ← gb.msgbuf[0]?
  let msgbuf ← storeChar gb.msgbuf 0 0
  let msgbuf ← storeChar msgbuf 1 0
  let msgbuf ← storeChar msgbuf 2 0
  if msgbuf.length < nBytes then none
  else if receivedCrc c0 c1 c2 ≠ checksum (msgbuf.take nBytes) then
    some (.checksumError, { gb with msgbuf := msgbuf })
  else
    let finshed ← copyChars msgbuf 3 gb.finshedMessage 0 (nBytes - 3)
    some (.completed,
      { gb with
        msgbuf := msgbuf
        finshedMessage := finshed
        finshedMessageSz := nBytes - 3 })

/-- A one is added to the character at `pos`. -/
def storeMessageBit (gb : GazerbeamReceiver) (pos : ℕ) (bit : GazerbeamBit) :
    Option (List UInt8) :=
  if bit = .one then do
    let c ← gb.msgbuf[pos]?
    storeChar gb.msgbuf pos (c ||| gb.receiveBit)
  else some gb.msgbuf

/-- The bit is added to the message which is being received, if there is one. -/
def receiveMessageBit (gb : GazerbeamReceiver) (bit : GazerbeamBit) :
    Option (GazerbeamStatus × GazerbeamReceiver) :=
  match gb.receivePos with
  | none => some (.pending, gb)
  | some pos =>
      if gb.receiveBit = 0 then
        if bit = .zero then some (.success, gb)
        else some (.success, { gb with receiveBit := 1 })
      else do
        let msgbuf ← gb.storeMessageBit pos bit
        if gb.receiveBit &&& 0x40 ≠ 0 then
          if gazerbeamMaxMsgSz + 2 ≤ pos + 1 then
            some (.failed, { gb with msgbuf := msgbuf, receiveBit := 1, receivePos := none })
          else do
            let msgbuf ← storeChar msgbuf (pos + 1) 0
            some (.success,
              { gb with msgbuf := msgbuf, receiveBit := 1, receivePos := some (pos + 1) })
        else
          some (.success, { gb with msgbuf := msgbuf, receiveBit := gb.receiveBit <<< 1 })

/-- `gazerbeam_decode_message`, after the pulse has been classified as `bit`; `none`
stands for an access outside `msgbuf` or `finshed_message`. -/
def decodeMessage (gb : GazerbeamReceiver) (bit : GazerbeamBit) :
    Option (GazerbeamStatus × GazerbeamReceiver) :=
  match bit with
  | .zero =>
      let gb := if gb.nZeros < leadingZeroes then { gb with nZeros := gb.nZeros + 1 } else gb
      if gb.nZeros = leadingZeroes then
        match gb.receivePos with
        | none => gb.receiveMessageBit .zero
        | some pos => do
            let gb := { gb with receivePos := none }
            let nBytes ← trimmedSize gb.msgbuf pos
            if 4 ≤ nBytes ∧ gb.finshedMessageSz = 0 then gb.finishMessage checksum nBytes
            else gb.receiveMessageBit .zero
      else gb.receiveMessageBit .zero
  | .one =>
      if gb.nZeros = leadingZeroes then do
        let msgbuf ← storeChar gb.msgbuf 0 0
        { gb with
          receivePos := some 0
          receiveBit := 0
          msgbuf := msgbuf
          nZeros := 0 }.receiveMessageBit .one
      else { gb with nZeros := 0 }.receiveMessageBit .one

/-- `gazerbeam_get_message`: the message in a buffer of `bufSz` characters. -/
def getMessage (gb : GazerbeamReceiver) (bufSz : ℕ) (noNullTermination : Bool) :
    List UInt8 × GazerbeamReceiver :=
  let room := if noNullTermination then bufSz else bufSz - 1
  ((gb.finshedMessage.take (min gb.finshedMessageSz room)),
    { gb with finshedMessageSz := 0 })

end GazerbeamReceiver

end Iocom
