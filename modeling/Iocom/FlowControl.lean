import Iocom.Lib.AcknowledgedWindow
import Iocom.ReadFrame
import Mathlib.Data.Int.ModEq

/-!
# Flow control

The counters of two connected ends and the functions which decide whether a
message may be put into the frame buffer.  Of a message flow control knows the
size, and what an acknowledgement or an authentication message tells.  Frames
are written piecemeal and received in pieces; the line keeps the order.

A message is kept with the number of bytes which its sender had received when
it was put into the frame buffer.  The counters of the code keep 32 bits of
such numbers, and acknowledgements tell 16 or 24 bits of them.
-/

namespace Iocom

open AcknowledgedWindow (Item total covered lastAck)

inductive FlowMessage where
  | acknowledge (processedBytes : ℕ)
  | authentication (frameSz : ℤ) (size : ℕ)
  | frame (size : ℕ)
  deriving DecidableEq

def FlowMessage.size (isSocket : Bool) : FlowMessage → ℕ
  | .acknowledge _ => ackSizeOf isSocket
  | .authentication _ size => size
  | .frame size => size

def FlowMessage.isAck : FlowMessage → Bool
  | .acknowledge _ => true
  | _ => false

/-- An authentication message is smaller than this: a header, three strings with
a length byte each, the device number and the unique identifier. -/
def maxAuthenticationSz : ℕ := 1024

/-- What `ioc_connection_send` finds to send: the size of the authentication
message, and that of the next frame of remove requests, of memory block
information or of data, in this order, if there is any. -/
structure Outgoing where
  authenticationSz : ℕ
  next : Option ℕ
  authenticationSz_pos : 0 < authenticationSz
  authenticationSz_le : authenticationSz ≤ maxAuthenticationSz
  next_pos : ∀ size ∈ next, 0 < size

/-- `ioc_write_to_stream`, when the stream takes so many bytes at most. -/
def Connection.writeToStream (con : Connection) (accepted : ℕ) : Connection :=
  let n := con.frameOutUsed - con.frameOutPos
  if n = 0 then con
  else
    let written := min accepted n
    let con :=
      { con with
        bytesSent := (con.bytesSent + written) % 0x100000000
        frameOutPos := con.frameOutPos + written }
    if con.frameOutUsed ≤ con.frameOutPos then
      { con with frameOutUsed := 0, frameOutPos := 0 }
    else con

/-- `ioc_send_acknowledge` before it writes to the stream. -/
def Connection.putAcknowledge (con : Connection) : Connection × FlowMessage :=
  ({ con with
      frameOutUsed := con.ackSize
      bytesAcknowledged := con.bytesReceived },
    .acknowledge (con.bytesReceived % con.ackModulus))

/-- `ioc_send_acknowledge`, which `ioc_send_timed_keepalive` calls as well. -/
def Connection.sendAcknowledge (con : Connection) (accepted : ℕ) :
    Connection × List FlowMessage :=
  if con.frameOutUsed ≠ 0 then (con, [])
  else (con.putAcknowledge.1.writeToStream accepted, [con.putAcknowledge.2])

/-- `ioc_acknowledge_as_needed`; `none` is `OSAL_PENDING`. -/
def Connection.acknowledgeAsNeeded (con : Connection) (accepted : ℕ) :
    Option (Connection × List FlowMessage) :=
  if con.maxAckInAir - con.inAir < con.ackSize then none
  else if con.unacknowledged < con.unacknowledgedLimit then some (con, [])
  else some (con.sendAcknowledge accepted)

/-- The check which `ioc_finish_frame` and `ioc_make_data_frame` make, and what
they do to the connection; `none` if flow control cancels the frame. -/
def Connection.finishFrame (con : Connection) (usedBytes : ℕ) :
    Option Connection :=
  if con.maxInAir - con.inAir < usedBytes then none
  else
    some
      { con with
        frameOutUsed := usedBytes
        frameOutNr := nextFrameNr con.frameOutNr }

/-- The middle part of `ioc_connection_send`: a new frame for the empty frame
buffer. -/
def Connection.makeFrame (con : Connection) (outgoing : Outgoing) :
    Connection × List FlowMessage :=
  if con.connectUp && !con.authenticationReceived then (con, [])
  else if !con.authenticationSent then
    match con.finishFrame outgoing.authenticationSz with
    | none => (con, [])
    | some con' =>
        ({ con' with authenticationSent := true },
          [.authentication con.frameSz outgoing.authenticationSz])
  else if !con.authenticationReceived then (con, [])
  else
    match outgoing.next with
    | none => (con, [])
    | some size =>
        match con.finishFrame size with
        | none => (con, [])
        | some con' => (con', [.frame size])

/-- `ioc_connection_send`: the connection and the messages which have been put
into its frame buffer.  The numbers are how many bytes the stream takes of an
acknowledgement, and of the rest. -/
def Connection.send
    (con : Connection) (outgoing : Outgoing) (ofAcknowledge ofFrame : ℕ) :
    Connection × List FlowMessage :=
  if con.frameOutUsed ≠ 0 then (con.writeToStream ofFrame, [])
  else
    match con.acknowledgeAsNeeded ofAcknowledge with
    | none => (con.writeToStream ofFrame, [])
    | some (con, messages) =>
        if con.frameOutUsed ≠ 0 then (con, messages)
        else
          let made := con.makeFrame outgoing
          (made.1.writeToStream ofFrame, messages ++ made.2)

/-- What a received message does to the connection: the acknowledgement in
`ioc_connection_receive`, and
`ioc_process_received_authentication_message`. -/
def Connection.handle (con : Connection) : FlowMessage → Connection
  | .acknowledge processedBytes => { con with processedBytes := processedBytes }
  | .authentication frameSz _ =>
      let con :=
        if minFrameSz ≤ frameSz ∧ frameSz ≤ maxFrameSz ∧
            frameSz < con.dstFrameSz then
          { con with
            dstFrameSz := frameSz
            maxInAir := socketMaxInAir frameSz
            maxAckInAir := socketMaxAckInAir frameSz }
        else con
      { con with authenticationReceived := true }
  | .frame _ => con

/-- A message which has been put into the frame buffer, and how many bytes had
been received then. -/
structure Placed where
  message : FlowMessage
  received : ℕ

def Placed.item (isSocket : Bool) (p : Placed) : Item :=
  ⟨p.message.isAck, p.message.size isSocket, p.received⟩

/-- One end: its connection, all messages which it has put into its frame buffer
so far, and how many bytes it has received. -/
structure FlowEnd where
  con : Connection
  placed : List Placed
  received : ℕ

def FlowEnd.history (e : FlowEnd) : List Item :=
  e.placed.map (Placed.item e.con.isSocket)

def FlowEnd.placedBytes (e : FlowEnd) : ℕ := total e.history

/-- Bytes which have been written. -/
def FlowEnd.sentBytes (e : FlowEnd) : ℕ :=
  e.placedBytes - (e.con.frameOutUsed - e.con.frameOutPos)

/-- Bytes which the last received acknowledgement covers. -/
def FlowEnd.coveredBytes (e peer : FlowEnd) : ℕ :=
  covered peer.history e.received

/-- The message which the byte after the first `received` ones belongs to, and
how many bytes of the message begin there. -/
def messageAt (isSocket : Bool) : List Placed → ℕ → Option (FlowMessage × ℕ)
  | [], _ => none
  | p :: placed, received =>
      if received < p.message.size isSocket then
        some (p.message, p.message.size isSocket - received)
      else messageAt isSocket placed (received - p.message.size isSocket)

/-- `ioc_connection_receive` when it reads so many bytes of the message which is
under way; `none` if there are not so many. -/
def FlowEnd.receive (e peer : FlowEnd) (n : ℕ) : Option FlowEnd :=
  if peer.sentBytes < e.received + n then none
  else
    match messageAt peer.con.isSocket peer.placed e.received with
    | none => some e
    | some (message, left) =>
        if left < n then none
        else
          let con :=
            { e.con with
              bytesReceived := (e.con.bytesReceived + n) % 0x100000000 }
          some
            { e with
              con := if n = left then con.handle message else con
              received := e.received + n }

def FlowEnd.place (e : FlowEnd) (result : Connection × List FlowMessage) :
    FlowEnd :=
  { e with
    con := result.1
    placed := e.placed ++
      result.2.map fun message => ⟨message, e.received⟩ }

inductive FlowAction where
  | receive (n : ℕ)
  | send (outgoing : Outgoing) (ofAcknowledge ofFrame : ℕ)
  | keepalive (accepted : ℕ)

/-- The action is not one of `ioc_send_timed_keepalive`. -/
def FlowAction.Untimed : FlowAction → Prop
  | .keepalive _ => False
  | _ => True

def FlowEnd.act (e peer : FlowEnd) : FlowAction → Option FlowEnd
  | .receive n => e.receive peer n
  | .send outgoing ofAcknowledge ofFrame =>
      some (e.place (e.con.send outgoing ofAcknowledge ofFrame))
  | .keepalive accepted => some (e.place (e.con.sendAcknowledge accepted))

structure FlowState where
  left : FlowEnd
  right : FlowEnd

def FlowState.stepLeft (s : FlowState) (action : FlowAction) : Option FlowState :=
  (s.left.act s.right action).map fun left => { s with left := left }

def FlowState.stepRight (s : FlowState) (action : FlowAction) : Option FlowState :=
  (s.right.act s.left action).map fun right => { s with right := right }

/-- Either end does something, and keep-alives only in timed runs. -/
def FlowStep (timed : Bool) (s t : FlowState) : Prop :=
  ∃ action : FlowAction, (timed = true ∨ action.Untimed) ∧
    (s.stepLeft action = some t ∨ s.stepRight action = some t)

/-- The connection after `ioc_connect` and `ioc_reset_connection_state`. -/
def initialConnection (isSocket connectUp : Bool) (socketFrameSz : ℤ) :
    Connection :=
  let frameSz := if isSocket then socketFrameSz else serialFrameSz
  { isSocket := isSocket
    connectUp := connectUp
    frameSz := frameSz
    dstFrameSz := frameSz
    maxInAir := if isSocket then socketMaxInAir frameSz else serialMaxInAir
    maxAckInAir :=
      if isSocket then socketMaxAckInAir frameSz else serialMaxAckInAir
    unacknowledgedLimit :=
      if isSocket then socketUnacknowledgedLimit else serialUnacknowledgedLimit
    bytesSent := 0
    processedBytes := 0
    bytesReceived := 0
    bytesAcknowledged := 0xA0A000
    frameOutUsed := 0
    frameOutPos := 0
    frameOutNr := 0
    authenticationSent := false
    authenticationReceived := false }

def initialEnd (isSocket connectUp : Bool) (socketFrameSz : ℤ) : FlowEnd :=
  ⟨initialConnection isSocket connectUp socketFrameSz, [], 0⟩

/-- Two ends of a new connection.  Of two ends which both connect upwards none
would begin with the authentication. -/
inductive FlowStart : FlowState → Prop
  | mk (isSocket upLeft upRight : Bool) (szLeft szRight : ℤ)
      (hleft : minFrameSz ≤ szLeft ∧ szLeft ≤ maxFrameSz)
      (hright : minFrameSz ≤ szRight ∧ szRight ≤ maxFrameSz)
      (hup : upLeft = false ∨ upRight = false) :
      FlowStart
        ⟨initialEnd isSocket upLeft szLeft, initialEnd isSocket upRight szRight⟩

end Iocom
