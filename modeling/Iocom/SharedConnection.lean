import Iocom.SnapshotReplication
import Iocom.FrameNumbers
import Mathlib.Logic.Function.Basic

/-!
# Replication over the stream of a connection

Any number of one-way links share one connection.  Their data frames go as bytes
through its stream, between system frames and acknowledgements; the stream is
written and read in parts, and a data frame which has been read belongs to the
target buffer whose memory block has the identifier in its header.  Seen from
one link, a run of the connection is a run of its own frames.
-/

namespace Iocom

structure LinkEnds where
  sender : MemoryBlock
  sbuf : SourceBuffer
  tbuf : TargetBuffer
  receiver : MemoryBlock
  /-- What `ioc_is_network_authorized` says about the network of the block. -/
  authorized : Bool
  snapshots : List (List UInt8)
  results : List (ℕ × List UInt8)

def LinkEnds.withChannel (e : LinkEnds) (channel : List Frame) : Replication where
  sender := e.sender
  sbuf := e.sbuf
  channel := channel
  tbuf := e.tbuf
  receiver := e.receiver
  snapshots := e.snapshots
  results := e.results

/-- One direction of a connection.  `frameOut` holds the bytes of `frame_out`
which have not been written, `stream` those which have not been read, and
`order` is the list of target buffers of the connection. -/
structure SharedConnection (ι : Type*) where
  links : ι → LinkEnds
  order : List ι
  con : Connection
  frameOut : List UInt8
  stream : List UInt8
  peer : Connection
  frameIn : FrameIn

inductive SharedAction (ι : Type*) where
  | write (i : ι) (addr : ℤ) (data : List UInt8)
  | synchronize (i : ι)
  | dataFrame (i : ι)
  | systemFrame (mblkId : ℤ) (content : List UInt8)
  | acknowledge
  | writeToStream (accepted : ℕ)
  | handle (message : FlowMessage) (bytes : ℕ)
  | connectionReceive (reads : List ℕ)
  | receive (i : ι)

namespace SharedConnection

variable {ι : Type*} [DecidableEq ι] (checksum : List UInt8 → ℕ)

def setLink (s : SharedConnection ι) (i : ι) (e : LinkEnds) : SharedConnection ι :=
  { s with links := Function.update s.links i e }

/-- `ioc_write` to the sender's block. -/
def write (s : SharedConnection ι) (i : ι) (addr : ℤ) (data : List UInt8) :
    SharedConnection ι :=
  let e := s.links i
  match Iocom.write e.sender [e.sbuf] addr data with
  | (sender, [sbuf]) => s.setLink i { e with sender := sender, sbuf := sbuf }
  | _ => s

/-- `ioc_sbuf_synchronize`, from `ioc_send` or by itself. -/
def synchronize (s : SharedConnection ι) (i : ι) : SharedConnection ι :=
  let e := s.links i
  s.setLink i
    { e with
      sbuf := e.sbuf.synchronize e.sender
      snapshots :=
        if e.sbuf.tookSnapshot (e.sbuf.synchronize e.sender) then
          e.snapshots ++ [e.sender.contents]
        else e.snapshots }

/-- `ioc_connection_send` has come to the source buffer of this link. -/
def dataFrame (s : SharedConnection ι) (i : ι) : SharedConnection ι :=
  let e := s.links i
  if s.con.frameOutUsed ≠ 0 ∨ e.sbuf.syncbuf.used = false then s
  else
    match makeDataFrame s.con e.sender e.sbuf with
    | none => s
    | some (con, sbuf, frame) =>
        { s.setLink i { e with sbuf := sbuf } with
          con := con
          frameOut := frame.encode checksum s.con.isSocket }

def systemFrame (s : SharedConnection ι) (mblkId : ℤ) (content : List UInt8) :
    SharedConnection ι :=
  if s.con.frameOutUsed ≠ 0 then s
  else
    match makeSystemFrame s.con mblkId content with
    | none => s
    | some (con, frame) =>
        { s with con := con, frameOut := frame.encode checksum s.con.isSocket }

/-- `ioc_send_acknowledge` before it writes to the stream. -/
def acknowledge (s : SharedConnection ι) : SharedConnection ι :=
  if s.con.frameOutUsed ≠ 0 then s
  else
    { s with
      con := s.con.putAcknowledge.1
      frameOut :=
        acknowledgeBytes s.con.isSocket (s.con.bytesReceived % s.con.ackModulus) }

/-- `ioc_write_to_stream`, when the stream takes so many bytes at most. -/
def writeToStream (s : SharedConnection ι) (accepted : ℕ) : SharedConnection ι :=
  let written := min accepted (s.con.frameOutUsed - s.con.frameOutPos)
  { s with
    con := s.con.writeToStream accepted
    frameOut := s.frameOut.drop written
    stream := s.stream ++ s.frameOut.take written }

def handle (s : SharedConnection ι) (message : FlowMessage) (bytes : ℕ) :
    SharedConnection ι :=
  { s with
    con :=
      { s.con.handle message with
        bytesReceived := (s.con.bytesReceived + bytes) % 0x100000000 } }

def findLink (s : SharedConnection ι) (mblkId : ℕ) : Option ι :=
  s.order.find? fun i => decide ((s.links i).receiver.mblkId = mblkId)

/-- `ioc_process_received_data_frame`; `none` is a broken connection. -/
def processReceivedDataFrame (s : SharedConnection ι) (frame : Frame) :
    Option (SharedConnection ι) :=
  match s.findLink frame.mblkId with
  | none => some s
  | some i =>
      let e := s.links i
      if !e.authorized then some s
      else
        match e.tbuf.storeFrame frame with
        | (true, tbuf) => some (s.setLink i { e with tbuf := tbuf })
        | (false, _) => none

/-- What `ioc_connection_receive` does with the message it has read.  A system
frame changes none of the links. -/
def process (s : SharedConnection ι) : Option Message → Option (SharedConnection ι)
  | some (.frame frame) =>
      if frame.system then some s else s.processReceivedDataFrame frame
  | _ => some s

/-- `ioc_connection_receive`; `none` is a broken connection. -/
def connectionReceive (s : SharedConnection ι) (reads : List ℕ) :
    Option (SharedConnection ι) :=
  match Iocom.connectionReceive checksum s.peer s.frameIn s.stream reads with
  | none => none
  | some (message, peer, frameIn, stream) =>
      { s with peer := peer, frameIn := frameIn, stream := stream }.process message

/-- `ioc_receive` of the receiver's block. -/
def receive (s : SharedConnection ι) (i : ι) : SharedConnection ι :=
  let e := s.links i
  match Iocom.receive e.receiver [] [e.tbuf] with
  | (receiver, [], [tbuf]) =>
      s.setLink i
        { e with
          receiver := receiver
          tbuf := tbuf
          results := e.results ++ [(e.snapshots.length, receiver.contents)] }
  | _ => s

def step (s : SharedConnection ι) : SharedAction ι → Option (SharedConnection ι)
  | .write i addr data => some (s.write i addr data)
  | .synchronize i => some (s.synchronize i)
  | .dataFrame i => some (s.dataFrame checksum i)
  | .systemFrame mblkId content => some (s.systemFrame checksum mblkId content)
  | .acknowledge => some s.acknowledge
  | .writeToStream accepted => some (s.writeToStream accepted)
  | .handle message bytes => some (s.handle message bytes)
  | .connectionReceive reads => s.connectionReceive checksum reads
  | .receive i => some (s.receive i)

def run (s : SharedConnection ι) (actions : List (SharedAction ι)) :
    Option (SharedConnection ι) :=
  actions.foldlM (step checksum) s

end SharedConnection

/-! ## Reading what has been written so far -/

theorem take_append_again {stream later : List UInt8} (given room : ℕ) :
    (stream ++ later).take (min (stream.take (min given room)).length room) =
      stream.take (min given room) := by
  rw [List.length_take, Nat.min_eq_left (by omega : _ ≤ room),
    List.take_append_of_le_length (by omega), ← List.take_eq_take_min]

/-- Bytes which are written later change nothing in a call: it reads as if the
stream gave it less. -/
theorem readFrameLoop_append (rfs : ReadFrameState) (stream later : List UInt8)
    (reads : List ℕ) :
    ∃ reads', readFrameLoop rfs (stream ++ later) reads' =
      (readFrameLoop rfs stream reads).map fun result => (result.1, result.2 ++ later) := by
  induction reads generalizing rfs stream with
  | nil =>
      refine ⟨[], ?_⟩
      cases h : rfs.expect <;> simp [readFrameLoop, h]
  | cons given reads ih =>
      cases h : rfs.expect with
      | none => exact ⟨[given], by simp [readFrameLoop, h]⟩
      | some rfs' =>
          generalize hdata : stream.take (min given (rfs'.needed - rfs'.buf.length)) = data
          have hagain : (stream ++ later).take
              (min data.length (rfs'.needed - rfs'.buf.length)) = data := by
            rw [← hdata, take_append_again]
          have hle : data.length ≤ stream.length := by
            rw [← hdata]
            exact List.length_take_le' _ _
          obtain ⟨reads', hreads⟩ := ih
            { rfs' with
              buf := rfs'.buf ++ data
              bytesReceived := rfs'.bytesReceived + data.length }
            (stream.drop data.length)
          refine ⟨data.length :: reads', ?_⟩
          simp only [readFrameLoop, h, hdata, hagain, List.drop_append_of_le_length hle]
          split_ifs
          · rfl
          · rfl
          · exact hreads
          · rfl

theorem connectionReceive_append (checksum : List UInt8 → ℕ) (con : Connection)
    (frameIn : FrameIn) (stream later : List UInt8) (reads : List ℕ) :
    ∃ reads', connectionReceive checksum con frameIn (stream ++ later) reads' =
      (connectionReceive checksum con frameIn stream reads).map
        fun result => (result.1, result.2.1, result.2.2.1, result.2.2.2 ++ later) := by
  obtain ⟨reads', hreads⟩ := readFrameLoop_append
    ⟨con.isSocket, con.frameSz, frameIn.frameNr, frameIn.buf, 0, 0, 0, 0, 0⟩ stream later reads
  refine ⟨reads', ?_⟩
  unfold connectionReceive
  rw [hreads]
  cases readFrameLoop ⟨con.isSocket, con.frameSz, frameIn.frameNr, frameIn.buf, 0, 0, 0, 0, 0⟩
      stream reads with
  | none => rfl
  | some result =>
      simp only [Option.map_some]
      split_ifs <;> rfl

theorem connectionReceive_frameSz {checksum : List UInt8 → ℕ} {con con' : Connection}
    {frameIn frameIn' : FrameIn} {stream stream' : List UInt8} {reads : List ℕ}
    {received : Option Message}
    (h : connectionReceive checksum con frameIn stream reads =
      some (received, con', frameIn', stream')) : con'.frameSz = con.frameSz := by
  unfold connectionReceive at h
  split at h
  · cases h
  · dsimp only at h
    split_ifs at h
    all_goals
      simp only [Option.some.injEq, Prod.mk.injEq] at h
      obtain ⟨-, rfl, -⟩ := h
      rfl

/-! ## What is under way -/

/-- The number which the next frame gets is the one which follows those under way. -/
theorem Numbered.append_message {nr : ℕ} {messages : List Message} {message : Message}
    (h : Numbered nr messages)
    (hnr : ∀ sent, message = .frame sent → sent.frameNr = messages.foldl Message.nextNr nr) :
    Numbered nr (messages ++ [message]) := by
  induction messages generalizing nr with
  | nil =>
      cases message with
      | acknowledge => trivial
      | frame sent => exact ⟨hnr sent rfl, trivial⟩
  | cons first messages ih =>
      cases first with
      | acknowledge => exact ih h hnr
      | frame sent =>
          obtain ⟨rfl, hrest⟩ := h
          exact ⟨rfl, ih hrest hnr⟩

theorem Receiving.append {checksum : List UInt8 → ℕ} {con : Connection} {frameIn : FrameIn}
    {stream : List UInt8} {messages : List Message} {message : Message}
    (h : Receiving checksum con frameIn stream messages)
    (hwf : message.WellFormed con.isSocket con.frameSz)
    (hnr : ∀ sent, message = .frame sent →
      sent.frameNr = messages.foldl Message.nextNr frameIn.frameNr) :
    Receiving checksum con frameIn (stream ++ message.encode checksum con.isSocket)
      (messages ++ [message]) where
  frameSz := h.frameSz
  wellFormed := by
    intro sent hmem
    rcases List.mem_append.mp hmem with hold | hlast
    · exact h.wellFormed sent hold
    · rwa [List.mem_singleton.mp hlast]
  numbered := h.numbered.append_message hnr
  bytes := by
    rw [← List.append_assoc, h.bytes]
    simp [encodeAll]
  unfinished := by
    intro first hfirst
    cases messages with
    | nil =>
        obtain rfl : message = first := by simpa using hfirst
        rw [h.nothing rfl]
        have hpos : 0 < ackSizeOf con.isSocket := by cases con.isSocket <;> decide
        exact hpos.trans_le (message.encode_pos con.isSocket)
    | cons head messages => exact h.unfinished first hfirst
  nothing := fun hnil => by simp at hnil

/-- Between two steps: the messages which have been put into the frame buffer and
not been received are in the buffers of both ends and in the stream. -/
structure Transports (checksum : List UInt8 → ℕ) (con : Connection) (frameOut : List UInt8)
    (stream : List UInt8) (peer : Connection) (frameIn : FrameIn) (queue : List Message) :
    Prop where
  isSocket : peer.isSocket = con.isSocket
  minFrameSz_le : minFrameSz ≤ con.dstFrameSz
  dstFrameSz_le : con.dstFrameSz ≤ peer.frameSz
  receiving : Receiving checksum peer frameIn (stream ++ frameOut) queue
  unwritten : con.frameOutUsed - con.frameOutPos = frameOut.length
  free : frameOut = [] → con.frameOutUsed = 0
  pos : con.frameOutUsed = 0 → con.frameOutPos = 0
  number : con.frameOutNr = queue.foldl Message.nextNr frameIn.frameNr
  number_le : con.frameOutNr ≤ maxFrameNr

theorem nextFrameNr_le (nr : ℕ) : nextFrameNr nr ≤ maxFrameNr := by
  unfold nextFrameNr maxFrameNr
  split <;> omega

namespace Transports

variable {checksum : List UInt8 → ℕ} {con con' peer : Connection} {frameOut stream : List UInt8}
  {frameIn : FrameIn} {queue : List Message}

theorem put (h : Transports checksum con frameOut stream peer frameIn queue)
    {message : Message} (hfree : con.frameOutUsed = 0)
    (hwf : message.WellFormed peer.isSocket peer.frameSz)
    (hnr : ∀ sent, message = .frame sent → sent.frameNr = con.frameOutNr)
    (hsame : con' =
      { con with
        frameOutUsed := (message.encode checksum con.isSocket).length
        frameOutNr := message.nextNr con.frameOutNr
        bytesAcknowledged := con'.bytesAcknowledged }) :
    Transports checksum con' (message.encode checksum con.isSocket) stream peer frameIn
      (queue ++ [message]) := by
  have hpos : 0 < (message.encode checksum con.isSocket).length := by
    have hack : 0 < ackSizeOf con.isSocket := by cases con.isSocket <;> decide
    exact hack.trans_le (message.encode_pos con.isSocket)
  have hnil : frameOut = [] := by
    have hlength := h.unwritten
    rw [hfree, Nat.zero_sub] at hlength
    exact List.eq_nil_of_length_eq_zero hlength.symm
  have hreceiving := h.receiving.append hwf fun sent hsent => (hnr sent hsent).trans h.number
  rw [hnil, List.append_nil, h.isSocket] at hreceiving
  have hnumber : message.nextNr con.frameOutNr =
      (queue ++ [message]).foldl Message.nextNr frameIn.frameNr := by
    rw [List.foldl_append, ← h.number]
    rfl
  rw [hsame]
  exact
    { isSocket := h.isSocket
      minFrameSz_le := h.minFrameSz_le
      dstFrameSz_le := h.dstFrameSz_le
      receiving := hreceiving
      unwritten := by
        dsimp only
        rw [h.pos hfree, Nat.sub_zero]
      free := fun hempty => by rw [hempty] at hpos; exact absurd hpos (lt_irrefl 0)
      pos := fun _ => h.pos hfree
      number := hnumber
      number_le := by
        cases message with
        | acknowledge => exact h.number_le
        | frame sent => exact nextFrameNr_le _ }

theorem write (h : Transports checksum con frameOut stream peer frameIn queue)
    (accepted : ℕ) :
    Transports checksum (con.writeToStream accepted)
      (frameOut.drop (min accepted (con.frameOutUsed - con.frameOutPos)))
      (stream ++ frameOut.take (min accepted (con.frameOutUsed - con.frameOutPos)))
      peer frameIn queue := by
  have hlength := h.unwritten
  have hpos := h.pos
  have hfree := h.free
  have hsame := con.writeToStream_same accepted
  have hcon : (con.writeToStream accepted).isSocket = con.isSocket ∧
      (con.writeToStream accepted).dstFrameSz = con.dstFrameSz ∧
      (con.writeToStream accepted).frameOutNr = con.frameOutNr := by
    rw [hsame]
    exact ⟨rfl, rfl, rfl⟩
  have hbuffer : (con.writeToStream accepted).frameOutUsed -
        (con.writeToStream accepted).frameOutPos =
          frameOut.length - min accepted (con.frameOutUsed - con.frameOutPos) ∧
      (frameOut.length ≤ min accepted (con.frameOutUsed - con.frameOutPos) →
        (con.writeToStream accepted).frameOutUsed = 0) ∧
      ((con.writeToStream accepted).frameOutUsed = 0 →
        (con.writeToStream accepted).frameOutPos = 0) := by
    unfold Connection.writeToStream
    dsimp only
    split_ifs with hnone hall
    · refine ⟨by omega, fun _ => hfree ?_, hpos⟩
      exact List.eq_nil_of_length_eq_zero (by omega)
    · exact ⟨by dsimp only; omega, fun _ => rfl, fun _ => rfl⟩
    · exact ⟨by dsimp only; omega, fun _ => by dsimp only; omega, fun hzero => by
        dsimp only at hzero ⊢; omega⟩
  exact
    { isSocket := h.isSocket.trans hcon.1.symm
      minFrameSz_le := hcon.2.1 ▸ h.minFrameSz_le
      dstFrameSz_le := hcon.2.1 ▸ h.dstFrameSz_le
      receiving := by
        rw [List.append_assoc, List.take_append_drop]
        exact h.receiving
      unwritten := by rw [hbuffer.1, List.length_drop]
      free := fun hempty => hbuffer.2.1 (List.drop_eq_nil_iff.mp hempty)
      pos := hbuffer.2.2
      number := hcon.2.2.trans h.number
      number_le := hcon.2.2.trans_le h.number_le }

/-- What is received from the other direction changes the counters only, unless
it is an authentication message. -/
theorem handle (h : Transports checksum con frameOut stream peer frameIn queue)
    {message : FlowMessage} {bytes : ℕ} (hmessage : ∀ sz size, message ≠ .authentication sz size) :
    Transports checksum { con.handle message with bytesReceived := bytes } frameOut stream peer
      frameIn queue := by
  have hsame : { con.handle message with bytesReceived := bytes } =
      { con with
        processedBytes := (con.handle message).processedBytes
        bytesReceived := bytes } := by
    cases message with
    | acknowledge => rfl
    | authentication sz size => exact absurd rfl (hmessage sz size)
    | frame => rfl
  rw [hsame]
  exact { h with }

/-- A call of `ioc_connection_receive` reads what has been written: there is no
error, and the message which it finds is the first one under way. -/
theorem receive (h : Transports checksum con frameOut stream peer frameIn queue)
    (reads : List ℕ) :
    ∃ received peer' frameIn' stream' rest,
      connectionReceive checksum peer frameIn stream reads =
        some (received, peer', frameIn', stream') ∧
      queue = received.toList ++ rest ∧
      Transports checksum con frameOut stream' peer' frameIn' rest := by
  obtain ⟨reads', hreads⟩ :=
    connectionReceive_append checksum peer frameIn stream frameOut reads
  obtain ⟨received, peer', frameIn', stream', rest, hrun, hqueue, hreceiving, hsocket, -, -, -,
    hnr⟩ := h.receiving.receive reads'
  have hsz := connectionReceive_frameSz hrun
  rw [hrun] at hreads
  obtain ⟨⟨received₀, peer₀, frameIn₀, stream₀⟩, hstep, heq⟩ :=
    Option.map_eq_some_iff.mp hreads.symm
  simp only [Prod.mk.injEq] at heq
  obtain ⟨rfl, rfl, rfl, rfl⟩ := heq
  refine ⟨_, _, _, _, rest, hstep, hqueue, ?_⟩
  exact
    { isSocket := hsocket.trans h.isSocket
      minFrameSz_le := h.minFrameSz_le
      dstFrameSz_le := hsz ▸ h.dstFrameSz_le
      receiving := hreceiving
      unwritten := h.unwritten
      free := h.free
      pos := h.pos
      number := by rw [h.number, hqueue, List.foldl_append, hnr]
      number_le := h.number_le }

end Transports

end Iocom
