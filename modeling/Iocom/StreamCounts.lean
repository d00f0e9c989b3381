import Iocom.StreamerTransfer

/-!
# Byte counts of streams

What `ioc_streamer_read` and `ioc_streamer_write` return in `n_read` and
`n_written`, also when data is only peeked at, when the ring buffer is not
connected and when its memory block is missing.
-/

namespace Iocom

/-! ## Reading -/

/-- The arguments of `ioc_streamer_read`, and what the call gets from outside.
`given` tells that neither `stream` nor `buf` is `OS_NULL`, `peek` that the flag
`OSAL_STREAM_PEEK` is set. -/
structure StreamerReadCall where
  given : Bool
  n : ℤ
  peek : Bool
  call : StreamerCall
  seen : WriterSeen
  cs : ℕ

/-- The reading end after a read, the bytes which were stored to the caller's
buffer and `n_read`. -/
structure ReadOutcome where
  reader : ReaderEnd
  moved : List UInt8
  nRead : ℤ

/-- What `ioc_streamer_read_internal` stores to the caller's buffer. -/
def streamerReadMoved (view : Mem) (bufSz n head tail : ℤ) (connected : Bool × Bool) :
    List UInt8 :=
  match (RingReader.mk tail n [] 0).readToEnd view bufSz head connected.1 with
  | none => []
  | some first =>
      match first.readToHead view head connected.2 with
      | none => first.moved
      | some second => second.moved

/-- What `ioc_streamer_read_internal` returns. -/
def streamerReadCount (view : Mem) (bufSz n head tail : ℤ) (connected : Bool × Bool) : ℤ :=
  match streamerReadInternal view bufSz n head tail connected with
  | none => -1
  | some ring => ring.nbytes

variable (setup : StreamerSetup)

/-- The step `IOC_SSTEP_TRANSFER_DATA` of the reading functions. -/
def StreamerSetup.readDataCounted (reader : ReaderEnd) (c : StreamerReadCall)
    (done : ReaderEnd → ReaderEnd) : ReadOutcome :=
  if (c.seen.signal ≠ .running ∧ c.seen.signal ≠ .completed) ∨ c.call.interrupt then
    ⟨reader.to .failed, [], 0⟩
  else if c.seen.head < 0 ∨ setup.bufSz ≤ c.seen.head then ⟨reader.to .failed, [], 0⟩
  else
    let moved := streamerReadMoved c.seen.view setup.bufSz (osInt c.n) c.seen.head reader.tail
      c.seen.bufferConnected
    match streamerReadInternal c.seen.view setup.bufSz (osInt c.n) c.seen.head reader.tail
        c.seen.bufferConnected with
    | none => ⟨reader.to .failed, moved, -1⟩
    | some ring =>
        let after :=
          if ring.nbytes ≠ 0 ∧ c.peek = false then
            { reader with tail := ring.ltail }.set
              { reader.signals with
                tail := ring.ltail
                count := reader.signals.count + ring.moved.length }
          else reader
        if c.seen.signal = .running then
          if ring.nbytes = 0 ∧ c.call.elapsed then ⟨after.to .failed, moved, ring.nbytes⟩
          else ⟨after, moved, ring.nbytes⟩
        else ⟨done after, moved, ring.nbytes⟩

/-- `ioc_streamer_device_read`. -/
def StreamerSetup.deviceReadCounted (reader : ReaderEnd) (c : StreamerReadCall) : ReadOutcome :=
  let reader :=
    if c.call.connected ∨ reader.step = .failedAndIdleSet then reader
    else (reader.setSignal .idle).to .failedAndIdleSet
  let done := fun reader : ReaderEnd => reader.to .transferDone
  match reader.step with
  | .initialized =>
      if c.seen.signal ≠ .running ∧ c.seen.signal ≠ .completed then
        ⟨reader.to .failed, [], 0⟩
      else setup.readDataCounted ((reader.setSignal .running).to .transferData) c done
  | .transferData => setup.readDataCounted reader c done
  | .transferDone => ⟨(reader.setSignal .idle).to .allCompleted, [], 0⟩
  | .failed => ⟨(reader.setSignal .interrupt).to .failed2, [], 0⟩
  | .failed2 =>
      if (c.seen.signal = .running ∨ c.seen.signal = .completed) ∧ c.call.connected ∧
          !c.call.elapsed then
        ⟨reader, [], 0⟩
      else ⟨(reader.setSignal .idle).to .failedAndIdleSet, [], 0⟩
  | _ => ⟨reader, [], 0⟩

/-- `ioc_streamer_controller_read`. -/
def StreamerSetup.controllerReadCounted (reader : ReaderEnd) (c : StreamerReadCall) :
    ReadOutcome :=
  let reader :=
    if c.call.connected ∨ reader.step = .failedAndIdleSet then reader
    else (reader.setSignal .idle).to .failedAndIdleSet
  let done := fun reader : ReaderEnd => (reader.setSignal .idle).to .transferDone2
  match reader.step with
  | .initialized => ⟨(reader.setSignal .running).to .initialized2, [], 0⟩
  | .initialized2 =>
      if c.seen.signal ≠ .running ∧ c.seen.signal ≠ .completed then
        if c.call.elapsed then ⟨reader.to .failed, [], 0⟩ else ⟨reader, [], 0⟩
      else ⟨reader.to .transferData, [], 0⟩
  | .transferData => setup.readDataCounted reader c done
  | .transferDone => ⟨done reader, [], 0⟩
  | .transferDone2 =>
      if (c.seen.signal = .running ∨ c.seen.signal = .completed) ∧ !c.call.elapsed then
        ⟨reader, [], 0⟩
      else ⟨(reader.set { reader.signals with tail := 0 }).to .allCompleted, [], 0⟩
  | .failed => ⟨(reader.setSignal .idle).to .failed2, [], 0⟩
  | .failed2 =>
      if c.seen.signal = .running ∧ !c.call.elapsed then ⟨reader, [], 0⟩
      else ⟨reader.to .failedAndIdleSet, [], 0⟩
  | _ => ⟨reader, [], 0⟩

/-- `os_checksum` of the first `n` bytes of a buffer.  What it makes of fewer than
no bytes is a parameter. -/
def StreamerSetup.checksumOf (negative : ℕ → ℕ) (bytes : List UInt8) (n : ℤ)
    (checksum : ℕ) : ℕ :=
  if n < 0 then negative checksum else setup.checksum (bytes.take n.toNat) checksum

/-- `ioc_streamer_read`. -/
def StreamerSetup.readCounted (negative : ℕ → ℕ) (direction : StreamDirection)
    (reader : ReaderEnd) (c : StreamerReadCall) : ReadOutcome × StreamerStatus :=
  if !c.given ∨ c.n < 0 then (⟨reader, [], 0⟩, .failed)
  else
    let outcome :=
      match direction with
      | .fromDevice => setup.controllerReadCounted reader c
      | .toDevice => setup.deviceReadCounted reader c
    let status :=
      match direction with
      | .fromDevice => controllerReadStatus outcome.reader.step
      | .toDevice => deviceStatus outcome.reader.step
    if setup.disableChecksum then (outcome, status)
    else
      let checksum :=
        setup.checksumOf negative outcome.moved outcome.nRead outcome.reader.checksum
      ({ outcome with reader := { outcome.reader with checksum := checksum } },
        if status = .completed ∧ checksum ≠ c.cs then .checksumError else status)

/-! ## Writing -/

/-- `wrnow` bytes are counted as moved to the head.  `ioc_move_array` stores
nothing when it does not find the memory block. -/
def RingWriter.store (writer : RingWriter) (wrnow : ℤ) (stored : Bool) : RingWriter :=
  if stored then writer.move wrnow
  else { writer.move wrnow with buffer := writer.buffer, moved := writer.moved }

def RingWriter.storeToEnd (writer : RingWriter) (bufSz tail : ℤ) (stored : Bool) : RingWriter :=
  if tail ≤ writer.head then
    let space := if tail = 0 then bufSz - writer.head - 1 else bufSz - writer.head
    let wrnow := min space writer.rest.length
    if 0 < wrnow then
      let moved := writer.store wrnow stored
      { moved with head := if bufSz ≤ moved.head then 0 else moved.head }
    else writer
  else writer

def RingWriter.storeToTail (writer : RingWriter) (tail : ℤ) (stored : Bool) : RingWriter :=
  if writer.head < tail then
    let wrnow := min (tail - writer.head - 1) writer.rest.length
    if 0 < wrnow then writer.store wrnow stored else writer
  else writer

/-- `ioc_streamer_write_internal`; `stored` tells for each of the two moves whether
`ioc_move_array` finds the memory block. -/
def streamerStoreInternal (buffer : Mem) (bytes : List UInt8) (bufSz head tail : ℤ)
    (stored : Bool × Bool) : RingWriter :=
  ((RingWriter.mk buffer head bytes [] 0).storeToEnd bufSz tail stored.1).storeToTail tail
    stored.2

/-- The arguments of `ioc_streamer_write`, and what the call gets from outside.
The data is `none` for -1. -/
structure StreamerWriteCall where
  given : Bool
  data : Option (List UInt8)
  call : StreamerCall
  signal : StreamerState
  tail : ℤ
  stored : Bool × Bool

/-- The writing end after a write, the bytes which were stored to the ring buffer
and `n_written`. -/
structure WriteOutcome where
  writer : WriterEnd
  moved : List UInt8
  nWritten : ℤ

/-- `ioc_streamer_write_internal` and the checksum of what was counted. -/
def StreamerSetup.writeInternalCounted (writer : WriterEnd) (bytes : List UInt8)
    (c : StreamerWriteCall) : WriteOutcome :=
  let n := osInt bytes.length
  let ring := streamerStoreInternal writer.signals.buffer (bytes.take n.toNat) setup.bufSz
    writer.head c.tail c.stored
  let after :=
    if ring.nbytes ≠ 0 then
      { writer with head := ring.head }.set
        { writer.signals with
          buffer := ring.buffer
          head := ring.head
          count := writer.signals.count + ring.moved.length }
    else writer
  { writer :=
      if setup.disableChecksum then after
      else
        { after with
          checksum := setup.checksum (bytes.take ring.nbytes.toNat) after.checksum }
    moved := ring.moved
    nWritten := ring.nbytes }

/-- The step `IOC_SSTEP_TRANSFER_DATA` of `ioc_streamer_device_write`. -/
def StreamerSetup.deviceWriteDataCounted (writer : WriterEnd) (c : StreamerWriteCall) :
    WriteOutcome :=
  if (c.signal ≠ .running ∧ c.signal ≠ .completed) ∨ c.call.interrupt then
    ⟨writer.to .failed, [], 0⟩
  else if c.tail < 0 ∨ setup.bufSz ≤ c.tail then ⟨writer.to .failed, [], 0⟩
  else
    match c.data with
    | some bytes =>
        let outcome := setup.writeInternalCounted writer bytes c
        if outcome.nWritten = 0 ∧ bytes ≠ [] ∧ c.call.elapsed then
          { outcome with writer := outcome.writer.to .failed }
        else outcome
    | none => ⟨writer.endOfData, [], 0⟩

/-- `ioc_streamer_device_write`. -/
def StreamerSetup.deviceWriteCounted (writer : WriterEnd) (c : StreamerWriteCall) :
    WriteOutcome :=
  let writer :=
    if c.call.connected ∨ writer.step = .failedAndIdleSet then writer
    else (writer.setSignal .idle).to .failedAndIdleSet
  let waiting : Bool := c.signal = .running ∧ c.call.connected ∧ !c.call.elapsed
  match writer.step with
  | .initialized =>
      if c.signal ≠ .running ∧ c.signal ≠ .completed then ⟨writer.to .failed, [], 0⟩
      else setup.deviceWriteDataCounted ((writer.setSignal .running).to .transferData) c
  | .transferData => setup.deviceWriteDataCounted writer c
  | .transferDone =>
      if waiting then ⟨writer, [], 0⟩
      else
        let idle := writer.setSignal .idle
        ⟨(idle.set { idle.signals with head := 0 }).to .allCompleted, [], 0⟩
  | .failed => ⟨(writer.setSignal .interrupt).to .failed2, [], 0⟩
  | .failed2 =>
      if waiting then ⟨writer, [], 0⟩
      else
        let idle := writer.setSignal .idle
        ⟨(idle.set { idle.signals with head := 0 }).to .failedAndIdleSet, [], 0⟩
  | _ => ⟨writer, [], 0⟩

/-- The step `IOC_SSTEP_TRANSFER_DATA` of `ioc_streamer_controller_write`. -/
def StreamerSetup.controllerWriteDataCounted (writer : WriterEnd) (c : StreamerWriteCall) :
    WriteOutcome :=
  if c.signal ≠ .running ∨ c.call.interrupt then ⟨writer.to .failed, [], 0⟩
  else
    match c.data with
    | some [] => if c.call.elapsed then ⟨writer.to .failed, [], 0⟩ else ⟨writer, [], 0⟩
    | some bytes =>
        if c.tail < 0 ∨ setup.bufSz ≤ c.tail then ⟨writer.to .failed, [], 0⟩
        else setup.writeInternalCounted writer bytes c
    | none => ⟨writer.endOfData, [], 0⟩

/-- `ioc_streamer_controller_write`. -/
def StreamerSetup.controllerWriteCounted (writer : WriterEnd) (c : StreamerWriteCall) :
    WriteOutcome :=
  let writer :=
    if c.call.connected ∨ writer.step = .failedAndIdleSet then writer
    else (writer.setSignal .idle).to .failedAndIdleSet
  let waiting : Bool := c.signal = .running ∧ !c.call.elapsed
  match writer.step with
  | .initialized => ⟨(writer.setSignal .running).to .initialized2, [], 0⟩
  | .initialized2 =>
      if c.call.interrupt then ⟨writer.to .failed, [], 0⟩
      else if c.signal ≠ .running then
        if c.call.elapsed then ⟨writer.to .failed, [], 0⟩ else ⟨writer, [], 0⟩
      else setup.controllerWriteDataCounted (writer.to .transferData) c
  | .transferData => setup.controllerWriteDataCounted writer c
  | .transferDone =>
      if waiting then ⟨writer, [], 0⟩
      else ⟨(writer.setSignal .idle).to .allCompleted, [], 0⟩
  | .failed => ⟨(writer.setSignal .interrupt).to .failed2, [], 0⟩
  | .failed2 =>
      if waiting then ⟨writer, [], 0⟩
      else ⟨(writer.setSignal .idle).to .failedAndIdleSet, [], 0⟩
  | _ => ⟨writer, [], 0⟩

def controllerWriteStatus : StreamerStep → StreamerStatus
  | .initialized2 | .transferData | .transferDone | .failed | .failed2 => .success
  | .allCompleted => .completed
  | _ => .failed

/-- `ioc_streamer_write`. -/
def StreamerSetup.writeCounted (direction : StreamDirection) (writer : WriterEnd)
    (c : StreamerWriteCall) : WriteOutcome × StreamerStatus :=
  if !c.given then (⟨writer, [], 0⟩, .failed)
  else
    match direction with
    | .fromDevice =>
        let outcome := setup.deviceWriteCounted writer c
        (outcome, deviceStatus outcome.writer.step)
    | .toDevice =>
        let outcome := setup.controllerWriteCounted writer c
        (outcome, controllerWriteStatus outcome.writer.step)


/-! ## Moves -/

def TakesToEnd (bufSz n head tail : ℤ) : Prop := head < tail ∧ tail < bufSz ∧ 0 < n

/-- There is something to read between the tail and the head, perhaps after the
tail has gone round. -/
def TakesToHead (bufSz n head tail : ℤ) : Prop :=
  0 < n ∧ (tail < head ∨ head < tail ∧ tail < bufSz ∧ bufSz - tail < n ∧ 0 < head)

def ConnectedFor (bufSz n head tail : ℤ) (connected : Bool × Bool) : Prop :=
  (TakesToEnd bufSz n head tail → connected.1 = true) ∧
    (TakesToHead bufSz n head tail → connected.2 = true)

structure RingReader.Counts (n : ℤ) (reader : RingReader) : Prop where
  nbytes : reader.nbytes = reader.moved.length
  sum : reader.nbytes + reader.n = n
  rest : 0 ≤ n → 0 ≤ reader.n

theorem RingReader.counts_start (tail n : ℤ) : (RingReader.mk tail n [] 0).Counts n where
  nbytes := rfl
  sum := by simp
  rest := id

section Reading

variable {view : Mem} {bufSz n head tail rdnow : ℤ} {connected : Bool × Bool}
  {reader : RingReader}

theorem RingReader.Counts.move (h : reader.Counts n) (hpos : 0 < rdnow)
    (hle : rdnow ≤ reader.n) : (reader.move view rdnow).Counts n := by
  have hnbytes := h.nbytes
  have hsum := h.sum
  constructor
  · simp only [RingReader.move, List.length_append, Segment.segment_length]
    omega
  · simp only [RingReader.move]
    omega
  · intro _
    simp only [RingReader.move]
    omega

theorem RingReader.Counts.bounds (h : reader.Counts n) (hn : 0 ≤ n) :
    0 ≤ reader.nbytes ∧ reader.nbytes ≤ n := by
  have hnbytes := h.nbytes
  have hsum := h.sum
  have hrest := h.rest hn
  omega

theorem RingReader.readToEnd_start (view : Mem) (bufSz n head tail : ℤ) (connected : Bool) :
    (RingReader.mk tail n [] 0).readToEnd view bufSz head connected =
      if head < tail ∧ tail < bufSz ∧ 0 < n then
        if connected then
          let moved := (RingReader.mk tail n [] 0).move view (min (bufSz - tail) n)
          some { moved with ltail := if bufSz ≤ moved.ltail then 0 else moved.ltail }
        else none
      else some ⟨tail, n, [], 0⟩ := by
  unfold RingReader.readToEnd
  dsimp only
  by_cases hhead : head < tail
  · by_cases hpos : 0 < min (bufSz - tail) n
    · have htakes : head < tail ∧ tail < bufSz ∧ 0 < n := by omega
      rw [if_pos hhead, if_pos hpos, if_pos htakes]
    · rw [if_pos hhead, if_neg hpos, if_neg (by omega)]
  · rw [if_neg hhead, if_neg (by omega)]

theorem RingReader.readToHead_eq (reader : RingReader) (view : Mem) (head : ℤ)
    (connected : Bool) :
    reader.readToHead view head connected =
      if reader.ltail < head ∧ 0 < reader.n then
        if connected then some (reader.move view (min (head - reader.ltail) reader.n)) else none
      else some reader := by
  unfold RingReader.readToHead
  dsimp only
  by_cases hhead : reader.ltail < head
  · by_cases hpos : 0 < min (head - reader.ltail) reader.n
    · have htakes : reader.ltail < head ∧ 0 < reader.n := by omega
      rw [if_pos hhead, if_pos hpos, if_pos htakes]
    · rw [if_pos hhead, if_neg hpos, if_neg (by omega)]
  · rw [if_neg hhead, if_neg (by omega)]

theorem readToEnd_cases (view : Mem) (bufSz n head tail : ℤ) (connected : Bool) :
    (TakesToEnd bufSz n head tail ∧ connected = false ∧
      (RingReader.mk tail n [] 0).readToEnd view bufSz head connected = none) ∨
    ∃ reader, (RingReader.mk tail n [] 0).readToEnd view bufSz head connected = some reader ∧
      reader.Counts n ∧ (TakesToEnd bufSz n head tail → connected = true) ∧
      (reader.ltail < head ∧ 0 < reader.n ↔ TakesToHead bufSz n head tail) ∧
      (reader.nbytes = 0 ↔ ¬TakesToEnd bufSz n head tail) := by
  rw [RingReader.readToEnd_start]
  by_cases htakes : head < tail ∧ tail < bufSz ∧ 0 < n
  · cases connected with
    | false => exact Or.inl ⟨htakes, rfl, by simp [htakes]⟩
    | true =>
        refine Or.inr ⟨_, by rw [if_pos htakes, if_pos rfl], ?_, fun _ => rfl, ?_, ?_⟩
        · have hmoved : (RingReader.move (RingReader.mk tail n [] 0) view
              (min (bufSz - tail) n)).Counts n :=
            (RingReader.counts_start tail n).move (by omega) (by dsimp only; omega)
          exact ⟨hmoved.nbytes, hmoved.sum, hmoved.rest⟩
        · simp only [RingReader.move, TakesToHead]
          split_ifs <;> omega
        · simp only [RingReader.move, TakesToEnd]
          omega
  · refine Or.inr ⟨_, if_neg htakes, RingReader.counts_start tail n,
      fun hend => absurd hend htakes, ?_, ?_⟩
    · simp only [TakesToHead]
      omega
    · exact iff_of_true rfl htakes

/-- What `ioc_streamer_read_internal` counts. -/
theorem streamerReadInternal_cases (view : Mem) (bufSz n head tail : ℤ)
    (connected : Bool × Bool) :
    (¬ConnectedFor bufSz n head tail connected ∧
      streamerReadInternal view bufSz n head tail connected = none) ∨
    ∃ ring, streamerReadInternal view bufSz n head tail connected = some ring ∧
      ConnectedFor bufSz n head tail connected ∧ ring.Counts n ∧
      streamerReadMoved view bufSz n head tail connected = ring.moved ∧
      (ring.nbytes = 0 ↔ ¬TakesToEnd bufSz n head tail ∧ ¬TakesToHead bufSz n head tail) := by
  unfold streamerReadInternal streamerReadMoved ConnectedFor
  rcases readToEnd_cases view bufSz n head tail connected.1 with
    ⟨htakes, hfalse, hnone⟩ | ⟨reader, hsome, hcounts, hend, hhead, hzero⟩
  · left
    rw [hnone]
    exact ⟨fun hconnected => by simp [hconnected.1 htakes] at hfalse, rfl⟩
  · rw [hsome]
    dsimp only [Option.bind_eq_bind, Option.bind_some]
    rw [RingReader.readToHead_eq]
    by_cases htakes : reader.ltail < head ∧ 0 < reader.n
    · rw [if_pos htakes]
      cases hsecond : connected.2 with
      | false =>
          left
          exact ⟨fun hconnected => Bool.false_ne_true (hconnected.2 (hhead.mp htakes)), rfl⟩
      | true =>
          right
          have hmoved : (reader.move view (min (head - reader.ltail) reader.n)).Counts n :=
            hcounts.move (by omega) (by omega)
          refine ⟨_, rfl, ⟨hend, fun _ => rfl⟩, hmoved, rfl, ?_⟩
          have hnbytes := hcounts.nbytes
          simp only [hhead.mp htakes, not_true_eq_false, and_false, iff_false,
            RingReader.move]
          omega
    · right
      rw [if_neg htakes]
      refine ⟨reader, rfl, ⟨hend, fun hto => absurd (hhead.mpr hto) htakes⟩, hcounts, rfl, ?_⟩
      rw [hzero, ← hhead]
      simp [htakes]

end Reading
/-! ## Counts of reads -/

/-- A count is in the range 0 .. n and tells how many bytes were moved, none when
an error is returned. -/
def CountIsRight (count n : ℤ) (moved : List UInt8) (status : StreamerStatus) : Prop :=
  0 ≤ count ∧ count ≤ n ∧ count = moved.length ∧
    (status ≠ .success → status ≠ .completed → count = 0)

def StreamerReadCall.SeesData (setup : StreamerSetup) (c : StreamerReadCall) : Prop :=
  (c.seen.signal = .running ∨ c.seen.signal = .completed) ∧ c.call.interrupt = false ∧
    0 ≤ c.seen.head ∧ c.seen.head < setup.bufSz

def StreamerReadCall.Reaches (setup : StreamerSetup) (direction : StreamDirection)
    (step : StreamerStep) (c : StreamerReadCall) : Prop :=
  c.given = true ∧ c.call.connected = true ∧
    (step = .transferData ∨ direction = .toDevice ∧ step = .initialized) ∧ c.SeesData setup

/-- The ring buffer is connected whenever a read moves bytes from it. -/
def StreamerReadCall.Connected (setup : StreamerSetup) (direction : StreamDirection)
    (reader : ReaderEnd) (c : StreamerReadCall) : Prop :=
  c.Reaches setup direction reader.step →
    ConnectedFor setup.bufSz (osInt c.n) c.seen.head reader.tail c.seen.bufferConnected

section Reads

variable {setup : StreamerSetup} {direction : StreamDirection} {negative : ℕ → ℕ}
  {reader : ReaderEnd} {c : StreamerReadCall}

theorem streamerReadCount_isRight_iff (view : Mem) (bufSz head tail : ℤ) {n : ℤ}
    (connected : Bool × Bool) (hn : 0 ≤ n) :
    CountIsRight (streamerReadCount view bufSz (osInt n) head tail connected) n
        (streamerReadMoved view bufSz (osInt n) head tail connected) .success ↔
      ConnectedFor bufSz (osInt n) head tail connected := by
  have hle := osInt_le hn
  unfold CountIsRight streamerReadCount
  rcases streamerReadInternal_cases view bufSz (osInt n) head tail connected with
    ⟨hconnected, hnone⟩ | ⟨ring, hsome, hconnected, hcounts, hmoved, hzero⟩
  · simp [hnone, hconnected]
  · have hcount : 0 ≤ ring.nbytes ∧ ring.nbytes ≤ n := by
      by_cases hpos : 0 ≤ osInt n
      · have hbounds := hcounts.bounds hpos
        omega
      · have hnone : ring.nbytes = 0 := by
          rw [hzero]
          unfold TakesToEnd TakesToHead
          omega
        omega
    have hnbytes := hcounts.nbytes
    simp [hsome, hconnected, hmoved, hcount, hnbytes.symm]

/-- What a read in the step `IOC_SSTEP_TRANSFER_DATA` counts. -/
theorem StreamerSetup.readDataCounted_cases (reader : ReaderEnd) (c : StreamerReadCall)
    (done : ReaderEnd → ReaderEnd)
    (hdone : ∀ reader, (done reader).checksum = reader.checksum) :
    let outcome := setup.readDataCounted reader c done
    outcome.reader.checksum = reader.checksum ∧
    (¬c.SeesData setup ∧ outcome.nRead = 0 ∧ outcome.moved = [] ∨
      c.SeesData setup ∧
        outcome.nRead = streamerReadCount c.seen.view setup.bufSz (osInt c.n) c.seen.head
          reader.tail c.seen.bufferConnected ∧
        outcome.moved = streamerReadMoved c.seen.view setup.bufSz (osInt c.n) c.seen.head
          reader.tail c.seen.bufferConnected ∧
        (outcome.reader.step = .failed ∨ outcome.reader.step = reader.step ∨
          ∃ reader, outcome.reader = done reader)) := by
  unfold StreamerSetup.readDataCounted streamerReadCount
  by_cases hsignal : (c.seen.signal ≠ .running ∧ c.seen.signal ≠ .completed) ∨ c.call.interrupt
  · rw [if_pos hsignal]
    refine ⟨rfl, Or.inl ⟨?_, rfl, rfl⟩⟩
    rintro ⟨hgoes, hinterrupt, -⟩
    rcases hsignal with ⟨hrunning, hcompleted⟩ | hset
    · exact hgoes.elim hrunning hcompleted
    · simp [hinterrupt] at hset
  · rw [if_neg hsignal]
    by_cases hhead : c.seen.head < 0 ∨ setup.bufSz ≤ c.seen.head
    · rw [if_pos hhead]
      refine ⟨rfl, Or.inl ⟨?_, rfl, rfl⟩⟩
      rintro ⟨-, -, hlo, hhi⟩
      omega
    · rw [if_neg hhead]
      have hreaches : c.SeesData setup := by
        simp only [not_or, not_and, not_not, ne_eq, Bool.not_eq_true] at hsignal
        exact ⟨by tauto, hsignal.2, by omega, by omega⟩
      dsimp only
      cases hring : streamerReadInternal c.seen.view setup.bufSz (osInt c.n) c.seen.head
          reader.tail c.seen.bufferConnected with
      | none => exact ⟨rfl, Or.inr ⟨hreaches, rfl, rfl, Or.inl rfl⟩⟩
      | some ring =>
          dsimp only
          generalize hafter : (if ring.nbytes ≠ 0 ∧ c.peek = false then _ else reader) = after
          have hkeeps : after.checksum = reader.checksum ∧ after.step = reader.step := by
            rw [← hafter]
            split_ifs <;> exact ⟨rfl, rfl⟩
          split_ifs
          · exact ⟨hkeeps.1, Or.inr ⟨hreaches, rfl, rfl, Or.inl rfl⟩⟩
          · exact ⟨hkeeps.1, Or.inr ⟨hreaches, rfl, rfl, Or.inr (Or.inl hkeeps.2)⟩⟩
          · exact ⟨(hdone _).trans hkeeps.1,
              Or.inr ⟨hreaches, rfl, rfl, Or.inr (Or.inr ⟨after, rfl⟩)⟩⟩

structure ReadCounts (setup : StreamerSetup) (direction : StreamDirection) (reader : ReaderEnd)
    (c : StreamerReadCall) (outcome : ReadOutcome) (status : StreamerStatus) : Prop where
  checksum : outcome.reader.checksum = reader.checksum
  counts : ¬c.Reaches setup direction reader.step ∧ outcome.nRead = 0 ∧ outcome.moved = [] ∨
    c.Reaches setup direction reader.step ∧ status = .success ∧
      outcome.nRead = streamerReadCount c.seen.view setup.bufSz (osInt c.n) c.seen.head
        reader.tail c.seen.bufferConnected ∧
      outcome.moved = streamerReadMoved c.seen.view setup.bufSz (osInt c.n) c.seen.head
        reader.tail c.seen.bufferConnected

theorem ReadCounts.none {after : ReaderEnd} {status : StreamerStatus}
    (hreaches : ¬c.Reaches setup direction reader.step)
    (hchecksum : after.checksum = reader.checksum) :
    ReadCounts setup direction reader c ⟨after, [], 0⟩ status :=
  ⟨hchecksum, Or.inl ⟨hreaches, rfl, rfl⟩⟩

/-- A call in the step `IOC_SSTEP_TRANSFER_DATA`. -/
theorem StreamerSetup.readDataCounted_counts {before : ReaderEnd} {done : ReaderEnd → ReaderEnd}
    {status : StreamerStep → StreamerStatus} (hgiven : c.given = true)
    (hconnected : c.call.connected = true)
    (hstep : reader.step = .transferData ∨ direction = .toDevice ∧ reader.step = .initialized)
    (hdone : ∀ reader, (done reader).checksum = reader.checksum)
    (hbefore : before.step = .transferData ∧ before.tail = reader.tail ∧
      before.checksum = reader.checksum)
    (hstatus : status .failed = .success ∧ status .transferData = .success ∧
      ∀ reader, status (done reader).step = .success) :
    let outcome := setup.readDataCounted before c done
    ReadCounts setup direction reader c outcome (status outcome.reader.step) := by
  obtain ⟨hsum, hcounts⟩ := setup.readDataCounted_cases before c done hdone
  refine ⟨hsum.trans hbefore.2.2, ?_⟩
  rw [hbefore.2.1] at hcounts
  rcases hcounts with ⟨hsees, hnothing⟩ | ⟨hsees, hcount, hmoved, hafter⟩
  · exact Or.inl ⟨fun hreaches => hsees hreaches.2.2.2, hnothing⟩
  · refine Or.inr ⟨⟨hgiven, hconnected, hstep, hsees⟩, ?_, hcount, hmoved⟩
    rcases hafter with hfailed | hsame | ⟨after, hdone⟩
    · rw [hfailed]
      exact hstatus.1
    · rw [hsame, hbefore.1]
      exact hstatus.2.1
    · rw [hdone]
      exact hstatus.2.2 after

theorem StreamerSetup.deviceReadCounted_counts (hgiven : c.given = true) :
    let outcome := setup.deviceReadCounted reader c
    ReadCounts setup .toDevice reader c outcome (deviceStatus outcome.reader.step) := by
  unfold StreamerSetup.deviceReadCounted
  by_cases hconnected : c.call.connected = true
  · have hstays : ∀ {step : StreamerStep}, reader.step = step → step ≠ .transferData →
        step ≠ .initialized → ¬c.Reaches setup .toDevice reader.step := by
      rintro _ rfl hdata hinitial ⟨-, -, hdata' | ⟨-, hinitial'⟩, -⟩
      · exact hdata hdata'
      · exact hinitial hinitial'
    rw [if_pos (Or.inl hconnected)]
    dsimp only
    cases hstep : reader.step with
    | initialized =>
        dsimp only
        split_ifs with hsignal
        · apply ReadCounts.none
          · rintro ⟨-, -, -, hgoes, -⟩
            exact hgoes.elim hsignal.1 hsignal.2
          · rfl
        · exact setup.readDataCounted_counts hgiven hconnected (Or.inr ⟨rfl, hstep⟩)
            (fun _ => rfl) ⟨rfl, rfl, rfl⟩ ⟨rfl, rfl, fun _ => rfl⟩
    | transferData =>
        exact setup.readDataCounted_counts hgiven hconnected (Or.inl hstep) (fun _ => rfl)
          ⟨hstep, rfl, rfl⟩ ⟨rfl, rfl, fun _ => rfl⟩
    | failed2 =>
        dsimp only
        split_ifs
        · exact ReadCounts.none (hstays hstep (by decide) (by decide)) rfl
        · exact ReadCounts.none (hstays hstep (by decide) (by decide)) rfl
    | transferDone => exact ReadCounts.none (hstays hstep (by decide) (by decide)) rfl
    | failed => exact ReadCounts.none (hstays hstep (by decide) (by decide)) rfl
    | initialized2 => exact ReadCounts.none (hstays hstep (by decide) (by decide)) rfl
    | transferDone2 => exact ReadCounts.none (hstays hstep (by decide) (by decide)) rfl
    | allCompleted => exact ReadCounts.none (hstays hstep (by decide) (by decide)) rfl
    | failedAndIdleSet => exact ReadCounts.none (hstays hstep (by decide) (by decide)) rfl
  · have hreaches : ¬c.Reaches setup .toDevice reader.step := fun h => hconnected h.2.1
    by_cases hset : reader.step = .failedAndIdleSet
    · rw [if_pos (Or.inr hset)]
      simp only [hset]
      exact ReadCounts.none hreaches rfl
    · rw [if_neg (not_or.mpr ⟨hconnected, hset⟩)]
      exact ReadCounts.none hreaches rfl

theorem StreamerSetup.controllerReadCounted_counts (hgiven : c.given = true) :
    let outcome := setup.controllerReadCounted reader c
    ReadCounts setup .fromDevice reader c outcome
      (controllerReadStatus outcome.reader.step) := by
  unfold StreamerSetup.controllerReadCounted
  by_cases hconnected : c.call.connected = true
  · have hstays : ∀ {step : StreamerStep}, reader.step = step → step ≠ .transferData →
        ¬c.Reaches setup .fromDevice reader.step := by
      rintro _ rfl hdata ⟨-, -, hdata' | ⟨hdirection, -⟩, -⟩
      · exact hdata hdata'
      · cases hdirection
    rw [if_pos (Or.inl hconnected)]
    dsimp only
    cases hstep : reader.step with
    | transferData =>
        exact setup.readDataCounted_counts hgiven hconnected (Or.inl hstep) (fun _ => rfl)
          ⟨hstep, rfl, rfl⟩ ⟨rfl, rfl, fun _ => rfl⟩
    | initialized2 =>
        dsimp only
        split_ifs
        all_goals exact ReadCounts.none (hstays hstep (by decide)) rfl
    | transferDone2 =>
        dsimp only
        split_ifs
        all_goals exact ReadCounts.none (hstays hstep (by decide)) rfl
    | failed2 =>
        dsimp only
        split_ifs
        all_goals exact ReadCounts.none (hstays hstep (by decide)) rfl
    | initialized => exact ReadCounts.none (hstays hstep (by decide)) rfl
    | transferDone => exact ReadCounts.none (hstays hstep (by decide)) rfl
    | failed => exact ReadCounts.none (hstays hstep (by decide)) rfl
    | allCompleted => exact ReadCounts.none (hstays hstep (by decide)) rfl
    | failedAndIdleSet => exact ReadCounts.none (hstays hstep (by decide)) rfl
  · have hreaches : ¬c.Reaches setup .fromDevice reader.step := fun h => hconnected h.2.1
    by_cases hset : reader.step = .failedAndIdleSet
    · rw [if_pos (Or.inr hset)]
      simp only [hset]
      exact ReadCounts.none hreaches rfl
    · rw [if_neg (not_or.mpr ⟨hconnected, hset⟩)]
      exact ReadCounts.none hreaches rfl

/-- `ioc_streamer_read`, once its arguments have been checked. -/
theorem StreamerSetup.readCounted_eq (hgiven : c.given = true) (hn : 0 ≤ c.n) :
    ∃ outcome status, ReadCounts setup direction reader c outcome status ∧
      setup.readCounted negative direction reader c =
        if setup.disableChecksum then (outcome, status)
        else
          let checksum :=
            setup.checksumOf negative outcome.moved outcome.nRead reader.checksum
          ({ outcome with reader := { outcome.reader with checksum := checksum } },
            if status = .completed ∧ checksum ≠ c.cs then .checksumError else status) := by
  have hcalls : ¬(!c.given ∨ c.n < 0) := by
    simp [hgiven, hn]
  unfold StreamerSetup.readCounted
  rw [if_neg hcalls]
  cases direction with
  | fromDevice =>
      have hcounts := @StreamerSetup.controllerReadCounted_counts setup reader c hgiven
      refine ⟨_, _, hcounts, ?_⟩
      rw [← hcounts.checksum]
  | toDevice =>
      have hcounts := @StreamerSetup.deviceReadCounted_counts setup reader c hgiven
      refine ⟨_, _, hcounts, ?_⟩
      rw [← hcounts.checksum]

/-- `n_read` is right exactly when the ring buffer is connected for each move. -/
theorem StreamerSetup.readCounted_isRight_iff (negative : ℕ → ℕ) (direction : StreamDirection)
    (reader : ReaderEnd) (c : StreamerReadCall) (hn : 0 ≤ c.n) :
    CountIsRight (setup.readCounted negative direction reader c).1.nRead c.n
        (setup.readCounted negative direction reader c).1.moved
        (setup.readCounted negative direction reader c).2 ↔
      c.Connected setup direction reader := by
  by_cases hgiven : c.given = true
  · obtain ⟨outcome, status, hcounts, heq⟩ :=
      @StreamerSetup.readCounted_eq setup direction negative reader c hgiven hn
    have hresult : (setup.readCounted negative direction reader c).1.nRead = outcome.nRead ∧
        (setup.readCounted negative direction reader c).1.moved = outcome.moved ∧
        (status = .success → (setup.readCounted negative direction reader c).2 = .success) := by
      rw [heq]
      split_ifs
      · exact ⟨rfl, rfl, id⟩
      · exact ⟨rfl, rfl, fun hsuccess => by simp [hsuccess]⟩
    rw [hresult.1, hresult.2.1]
    unfold StreamerReadCall.Connected
    rcases hcounts.counts with ⟨hreaches, hnone, hnothing⟩ | ⟨hreaches, hsuccess, hcount, hmoved⟩
    · rw [hnone, hnothing]
      exact iff_of_true ⟨le_refl 0, hn, rfl, fun _ _ => rfl⟩ (fun h => absurd h hreaches)
    · rw [hresult.2.2 hsuccess, hcount, hmoved, streamerReadCount_isRight_iff _ _ _ _ _ hn]
      exact ⟨fun hconnected _ => hconnected, fun h => h hreaches⟩
  · have hfails : setup.readCounted negative direction reader c = (⟨reader, [], 0⟩, .failed) := by
      unfold StreamerSetup.readCounted
      rw [if_pos (Or.inl (by simpa using hgiven))]
    rw [hfails]
    exact iff_of_true ⟨le_refl 0, hn, rfl, fun _ _ => rfl⟩ (fun h => absurd h.1 hgiven)

end Reads
/-! ## Counts of writes -/

def StoresToEnd (bufSz n head tail : ℤ) : Prop :=
  tail ≤ head ∧ 0 < n ∧ (if tail = 0 then head + 1 < bufSz else head < bufSz)

/-- There is room for something between the head and the tail, perhaps after the
head has gone round. -/
def StoresToTail (bufSz n head tail : ℤ) : Prop :=
  0 < n ∧ (head + 1 < tail ∨ tail ≤ head ∧ head < bufSz ∧ bufSz - head < n ∧ 1 < tail)

def StoredFor (bufSz n head tail : ℤ) (stored : Bool × Bool) : Prop :=
  (StoresToEnd bufSz n head tail → stored.1 = true) ∧
    (StoresToTail bufSz n head tail → stored.2 = true)

def StreamerWriteCall.bytes (c : StreamerWriteCall) : List UInt8 := c.data.getD []

def StreamerWriteCall.Reaches (setup : StreamerSetup) (direction : StreamDirection)
    (step : StreamerStep) (c : StreamerWriteCall) : Prop :=
  c.given = true ∧ c.call.connected = true ∧ c.call.interrupt = false ∧
    (0 ≤ c.tail ∧ c.tail < setup.bufSz) ∧
    match direction with
    | .fromDevice =>
        (step = .transferData ∨ step = .initialized) ∧
          (c.signal = .running ∨ c.signal = .completed)
    | .toDevice => (step = .transferData ∨ step = .initialized2) ∧ c.signal = .running

/-- The memory block of the ring buffer is there whenever a write moves bytes to
it. -/
def StreamerWriteCall.Stored (setup : StreamerSetup) (direction : StreamDirection)
    (writer : WriterEnd) (c : StreamerWriteCall) : Prop :=
  c.Reaches setup direction writer.step →
    StoredFor setup.bufSz (osInt c.bytes.length) writer.head c.tail c.stored

section Writes

variable {setup : StreamerSetup} {direction : StreamDirection} {writer : WriterEnd}
  {c : StreamerWriteCall} {bytes : List UInt8}

theorem RingWriter.storeToEnd_start (buffer : Mem) (bytes : List UInt8)
    (bufSz head tail : ℤ) (stored : Bool) :
    ∃ k : ℕ, k ≤ bytes.length ∧ (0 < k ↔ StoresToEnd bufSz bytes.length head tail) ∧
      let ring := (RingWriter.mk buffer head bytes [] 0).storeToEnd bufSz tail stored
      ring.nbytes = k ∧ ring.rest = bytes.drop k ∧
        ring.moved = (if stored then bytes.take k else []) ∧
        (ring.head + 1 < tail ∧ 0 < ring.rest.length ↔
          StoresToTail bufSz bytes.length head tail) := by
  unfold RingWriter.storeToEnd StoresToEnd StoresToTail
  dsimp only
  generalize hspace : (if tail = 0 then bufSz - head - 1 else bufSz - head) = space
  by_cases htail : tail ≤ head
  · by_cases hpos : 0 < min space (bytes.length : ℤ)
    · refine ⟨(min space (bytes.length : ℤ)).toNat, by omega, ?_, ?_⟩
      · split_ifs at hspace ⊢ <;> omega
      · rw [if_pos htail, if_pos hpos]
        cases stored with
        | false =>
            simp only [RingWriter.store, RingWriter.move, Bool.false_eq_true, if_false,
              List.length_drop]
            refine ⟨by omega, trivial, trivial, ?_⟩
            split_ifs at hspace ⊢ <;> omega
        | true =>
            simp only [RingWriter.store, RingWriter.move, if_true, List.length_drop,
              List.nil_append]
            refine ⟨by omega, trivial, trivial, ?_⟩
            split_ifs at hspace ⊢ <;> omega
    · refine ⟨0, Nat.zero_le _, ?_, ?_⟩
      · split_ifs at hspace ⊢ <;> omega
      · rw [if_pos htail, if_neg hpos]
        refine ⟨rfl, rfl, by simp, ?_⟩
        dsimp only
        split_ifs at hspace <;> omega
  · refine ⟨0, Nat.zero_le _, by omega, ?_⟩
    rw [if_neg htail]
    refine ⟨rfl, rfl, by simp, ?_⟩
    dsimp only
    omega

/-- What `ioc_streamer_write_internal` counts and stores. -/
theorem streamerStoreInternal_cases (buffer : Mem) (bytes : List UInt8) (bufSz head tail : ℤ)
    (stored : Bool × Bool) :
    ∃ k₁ k₂ : ℕ, k₁ + k₂ ≤ bytes.length ∧
      (0 < k₁ ↔ StoresToEnd bufSz bytes.length head tail) ∧
      (0 < k₂ ↔ StoresToTail bufSz bytes.length head tail) ∧
      let ring := streamerStoreInternal buffer bytes bufSz head tail stored
      ring.nbytes = (k₁ + k₂ : ℕ) ∧
        ring.moved = (if stored.1 then bytes.take k₁ else []) ++
          (if stored.2 then (bytes.drop k₁).take k₂ else []) := by
  obtain ⟨k₁, hk₁, hend, hnbytes, hrest, hmoved, htail⟩ :=
    RingWriter.storeToEnd_start buffer bytes bufSz head tail stored.1
  unfold streamerStoreInternal
  generalize (RingWriter.mk buffer head bytes [] 0).storeToEnd bufSz tail stored.1 = first
    at hnbytes hrest hmoved htail
  unfold RingWriter.storeToTail
  dsimp only
  by_cases hroom : first.head < tail ∧ 0 < min (tail - first.head - 1) (first.rest.length : ℤ)
  · have hlength : (first.rest.length : ℤ) = bytes.length - k₁ := by
      rw [hrest, List.length_drop]
      omega
    refine ⟨k₁, (min (tail - first.head - 1) (first.rest.length : ℤ)).toNat, by omega, hend,
      ?_, ?_⟩
    · rw [← htail]
      omega
    · rw [if_pos hroom.1, if_pos hroom.2]
      cases stored.2 with
      | false =>
          simp only [RingWriter.store, RingWriter.move, Bool.false_eq_true, if_false,
            List.append_nil]
          exact ⟨by omega, hmoved⟩
      | true =>
          simp only [RingWriter.store, RingWriter.move, if_true, hmoved, hrest]
          exact ⟨by omega, trivial⟩
  · refine ⟨k₁, 0, hk₁, hend, ?_, ?_⟩
    · rw [← htail]
      omega
    · have hnone : (if first.head < tail then
          (if 0 < min (tail - first.head - 1) (first.rest.length : ℤ) then
            first.store (min (tail - first.head - 1) (first.rest.length : ℤ)) stored.2
          else first) else first) = first := by
        split_ifs with hhead hpos
        · exact absurd ⟨hhead, hpos⟩ hroom
        · rfl
        · rfl
      rw [hnone, hmoved, hnbytes]
      simp

theorem streamerStoreInternal_counts (buffer : Mem) (bytes : List UInt8) (bufSz head tail : ℤ)
    (stored : Bool × Bool) :
    let ring := streamerStoreInternal buffer bytes bufSz head tail stored
    0 ≤ ring.nbytes ∧ ring.nbytes ≤ bytes.length ∧
      (ring.nbytes = ring.moved.length ↔ StoredFor bufSz bytes.length head tail stored) := by
  obtain ⟨k₁, k₂, hlength, hend, htail, hnbytes, hmoved⟩ :=
    streamerStoreInternal_cases buffer bytes bufSz head tail stored
  dsimp only at hnbytes hmoved ⊢
  refine ⟨by omega, by omega, ?_⟩
  unfold StoredFor
  rw [hnbytes, hmoved, ← hend, ← htail]
  have hfirst : (bytes.take k₁).length = k₁ := by
    rw [List.length_take]
    omega
  have hsecond : ((bytes.drop k₁).take k₂).length = k₂ := by
    rw [List.length_take, List.length_drop]
    omega
  obtain ⟨first, second⟩ := stored
  cases first <;> cases second <;>
    simp only [if_true, if_false, Bool.false_eq_true, List.length_append, hfirst, hsecond,
      List.length_nil, imp_false, imp_true_iff, and_true, true_and] <;> omega

theorem StoredFor.moved (buffer : Mem) {bytes : List UInt8} {bufSz head tail : ℤ}
    {stored : Bool × Bool} (h : StoredFor bufSz bytes.length head tail stored) :
    let ring := streamerStoreInternal buffer bytes bufSz head tail stored
    ring.moved = bytes.take ring.nbytes.toNat := by
  obtain ⟨k₁, k₂, hlength, hend, htail, hnbytes, hmoved⟩ :=
    streamerStoreInternal_cases buffer bytes bufSz head tail stored
  have hfirst : (if stored.1 then bytes.take k₁ else []) = bytes.take k₁ := by
    split_ifs with hstored
    · rfl
    · have hnone : k₁ = 0 := Nat.eq_zero_of_not_pos fun hpos => hstored (h.1 (hend.mp hpos))
      rw [hnone, List.take_zero]
  have hsecond : (if stored.2 then (bytes.drop k₁).take k₂ else []) = (bytes.drop k₁).take k₂ := by
    split_ifs with hstored
    · rfl
    · have hnone : k₂ = 0 := Nat.eq_zero_of_not_pos fun hpos => hstored (h.2 (htail.mp hpos))
      rw [hnone, List.take_zero]
  dsimp only at hnbytes hmoved ⊢
  rw [hmoved, hnbytes, hfirst, hsecond, Int.toNat_natCast, List.take_add]

theorem StoredFor.eq_write (buffer : Mem) {bytes : List UInt8} {bufSz head tail : ℤ}
    {stored : Bool × Bool} (h : StoredFor bufSz bytes.length head tail stored) :
    streamerStoreInternal buffer bytes bufSz head tail stored =
      streamerWriteInternal buffer bytes bufSz head tail := by
  obtain ⟨k, -, hend, -, -, -, htail⟩ :=
    RingWriter.storeToEnd_start buffer bytes bufSz head tail stored.1
  have hfirst : (RingWriter.mk buffer head bytes [] 0).storeToEnd bufSz tail stored.1 =
      (RingWriter.mk buffer head bytes [] 0).writeToEnd bufSz tail := by
    unfold RingWriter.storeToEnd RingWriter.writeToEnd RingWriter.store
    by_cases hstores : StoresToEnd bufSz bytes.length head tail
    · rw [h.1 hstores]
      rfl
    · unfold StoresToEnd at hstores
      dsimp only
      split_ifs at hstores ⊢ <;> first | rfl | omega
  unfold streamerStoreInternal streamerWriteInternal
  rw [hfirst] at htail ⊢
  generalize (RingWriter.mk buffer head bytes [] 0).writeToEnd bufSz tail = first at htail
  unfold RingWriter.storeToTail RingWriter.writeToTail
  by_cases hstores : StoresToTail bufSz bytes.length head tail
  · rw [h.2 hstores]
    rfl
  · rw [← htail] at hstores
    dsimp only
    split_ifs <;> first | rfl | omega

structure WriteCounts (setup : StreamerSetup) (direction : StreamDirection) (writer : WriterEnd)
    (c : StreamerWriteCall) (outcome : WriteOutcome) (status : StreamerStatus) : Prop where
  counts :
    (c.bytes = [] ∨ ¬c.Reaches setup direction writer.step) ∧ outcome.nWritten = 0 ∧
        outcome.moved = [] ∧ outcome.writer.checksum = writer.checksum ∨
      c.Reaches setup direction writer.step ∧ status = .success ∧
        let ring := streamerStoreInternal writer.signals.buffer
          (c.bytes.take (osInt c.bytes.length).toNat) setup.bufSz writer.head c.tail c.stored
        outcome.nWritten = ring.nbytes ∧ outcome.moved = ring.moved ∧
          outcome.writer.checksum =
            if setup.disableChecksum then writer.checksum
            else setup.checksum (c.bytes.take ring.nbytes.toNat) writer.checksum

theorem WriteCounts.none {after : WriterEnd} {status : StreamerStatus}
    (hreaches : c.bytes = [] ∨ ¬c.Reaches setup direction writer.step)
    (hchecksum : after.checksum = writer.checksum) :
    WriteCounts setup direction writer c ⟨after, [], 0⟩ status :=
  ⟨Or.inl ⟨hreaches, rfl, rfl, hchecksum⟩⟩

/-- A call which comes to the ring buffer with the writing end `before`. -/
theorem StreamerSetup.writeInternalCounted_counts {before : WriterEnd}
    {outcome : WriteOutcome} {status : StreamerStatus} (hdata : c.data = some bytes)
    (hreaches : c.Reaches setup direction writer.step) (hstatus : status = .success)
    (hbuffer : before.signals.buffer = writer.signals.buffer) (hhead : before.head = writer.head)
    (hchecksum : before.checksum = writer.checksum)
    (hcount : outcome.nWritten = (setup.writeInternalCounted before bytes c).nWritten)
    (hmoved : outcome.moved = (setup.writeInternalCounted before bytes c).moved)
    (hsum : outcome.writer.checksum =
      (setup.writeInternalCounted before bytes c).writer.checksum) :
    WriteCounts setup direction writer c outcome status := by
  have hbytes : c.bytes = bytes := by
    simp [StreamerWriteCall.bytes, hdata]
  refine ⟨Or.inr ⟨hreaches, hstatus, ?_⟩⟩
  rw [hcount, hmoved, hsum, hbytes]
  unfold StreamerSetup.writeInternalCounted
  dsimp only
  rw [hbuffer, hhead]
  refine ⟨rfl, rfl, ?_⟩
  rw [← hchecksum]
  split_ifs <;> rfl

theorem StreamerSetup.deviceWriteDataCounted_counts {before : WriterEnd}
    (hgiven : c.given = true) (hconnected : c.call.connected = true)
    (hstep : writer.step = .transferData ∨ writer.step = .initialized)
    (hdata : before.step = .transferData)
    (hbuffer : before.signals.buffer = writer.signals.buffer) (hhead : before.head = writer.head)
    (hchecksum : before.checksum = writer.checksum) :
    let outcome := setup.deviceWriteDataCounted before c
    WriteCounts setup .fromDevice writer c outcome (deviceStatus outcome.writer.step) := by
  unfold StreamerSetup.deviceWriteDataCounted
  by_cases hsignal : (c.signal ≠ .running ∧ c.signal ≠ .completed) ∨ c.call.interrupt
  · rw [if_pos hsignal]
    refine WriteCounts.none (Or.inr ?_) hchecksum
    rintro ⟨-, -, hinterrupt, -, -, hgoes⟩
    rcases hsignal with ⟨hrunning, hcompleted⟩ | hset
    · exact hgoes.elim hrunning hcompleted
    · simp [hinterrupt] at hset
  · rw [if_neg hsignal]
    by_cases htail : c.tail < 0 ∨ setup.bufSz ≤ c.tail
    · rw [if_pos htail]
      refine WriteCounts.none (Or.inr ?_) hchecksum
      rintro ⟨-, -, -, hinside, -⟩
      omega
    · rw [if_neg htail]
      have hreaches : c.Reaches setup .fromDevice writer.step := by
        simp only [not_or, not_and, not_not, ne_eq, Bool.not_eq_true] at hsignal
        exact ⟨hgiven, hconnected, hsignal.2, by omega, hstep, by tauto⟩
      cases hbytes : c.data with
      | none =>
          exact WriteCounts.none (Or.inl (by simp [StreamerWriteCall.bytes, hbytes])) hchecksum
      | some bytes =>
          have hinternal : (setup.writeInternalCounted before bytes c).writer.step =
              before.step := by
            unfold StreamerSetup.writeInternalCounted
            dsimp only
            split_ifs <;> rfl
          dsimp only
          split_ifs
          · exact setup.writeInternalCounted_counts hbytes hreaches rfl hbuffer hhead hchecksum
              rfl rfl rfl
          · refine setup.writeInternalCounted_counts hbytes hreaches ?_ hbuffer hhead hchecksum
              rfl rfl rfl
            rw [hinternal, hdata]
            rfl

theorem StreamerSetup.controllerWriteDataCounted_counts {before : WriterEnd}
    (hgiven : c.given = true) (hconnected : c.call.connected = true)
    (hstep : writer.step = .transferData ∨ writer.step = .initialized2)
    (hdata : before.step = .transferData)
    (hbuffer : before.signals.buffer = writer.signals.buffer) (hhead : before.head = writer.head)
    (hchecksum : before.checksum = writer.checksum) :
    let outcome := setup.controllerWriteDataCounted before c
    WriteCounts setup .toDevice writer c outcome
      (controllerWriteStatus outcome.writer.step) := by
  unfold StreamerSetup.controllerWriteDataCounted
  by_cases hsignal : c.signal ≠ .running ∨ c.call.interrupt
  · rw [if_pos hsignal]
    refine WriteCounts.none (Or.inr ?_) hchecksum
    rintro ⟨-, -, hinterrupt, -, -, hrunning⟩
    rcases hsignal with hstopped | hset
    · exact hstopped hrunning
    · simp [hinterrupt] at hset
  · rw [if_neg hsignal]
    simp only [not_or, not_not, ne_eq, Bool.not_eq_true] at hsignal
    match hbytes : c.data with
    | none => exact WriteCounts.none (Or.inl (by simp [StreamerWriteCall.bytes, hbytes])) hchecksum
    | some [] =>
        have hnothing : c.bytes = [] := by simp [StreamerWriteCall.bytes, hbytes]
        dsimp only
        split_ifs
        · exact WriteCounts.none (Or.inl hnothing) hchecksum
        · exact WriteCounts.none (Or.inl hnothing) hchecksum
    | some (byte :: bytes) =>
        dsimp only
        split_ifs with htail
        · refine WriteCounts.none (Or.inr ?_) hchecksum
          rintro ⟨-, -, -, hinside, -⟩
          omega
        · have hreaches : c.Reaches setup .toDevice writer.step :=
            ⟨hgiven, hconnected, hsignal.2, by omega, hstep, hsignal.1⟩
          refine setup.writeInternalCounted_counts hbytes hreaches ?_ hbuffer hhead hchecksum
            rfl rfl rfl
          have hinternal : (setup.writeInternalCounted before (byte :: bytes) c).writer.step =
              before.step := by
            unfold StreamerSetup.writeInternalCounted
            dsimp only
            split_ifs <;> rfl
          rw [hinternal, hdata]
          rfl

theorem StreamerSetup.deviceWriteCounted_counts (hgiven : c.given = true) :
    let outcome := setup.deviceWriteCounted writer c
    WriteCounts setup .fromDevice writer c outcome (deviceStatus outcome.writer.step) := by
  unfold StreamerSetup.deviceWriteCounted
  by_cases hconnected : c.call.connected = true
  · have hstays : ∀ {step : StreamerStep}, writer.step = step → step ≠ .transferData →
        step ≠ .initialized → ¬c.Reaches setup .fromDevice writer.step := by
      rintro _ rfl hdata hinitial ⟨-, -, -, -, hstep, -⟩
      exact hstep.elim hdata hinitial
    rw [if_pos (Or.inl hconnected)]
    dsimp only
    cases hstep : writer.step with
    | initialized =>
        dsimp only
        split_ifs with hsignal
        · refine WriteCounts.none (Or.inr ?_) rfl
          rintro ⟨-, -, -, -, -, hgoes⟩
          exact hgoes.elim hsignal.1 hsignal.2
        · exact setup.deviceWriteDataCounted_counts hgiven hconnected (Or.inr hstep) rfl rfl rfl
            rfl
    | transferData =>
        exact setup.deviceWriteDataCounted_counts hgiven hconnected (Or.inl hstep) hstep rfl rfl
          rfl
    | transferDone =>
        dsimp only
        split_ifs
        all_goals exact WriteCounts.none (Or.inr (hstays hstep (by decide) (by decide))) rfl
    | failed2 =>
        dsimp only
        split_ifs
        all_goals exact WriteCounts.none (Or.inr (hstays hstep (by decide) (by decide))) rfl
    | failed => exact WriteCounts.none (Or.inr (hstays hstep (by decide) (by decide))) rfl
    | initialized2 => exact WriteCounts.none (Or.inr (hstays hstep (by decide) (by decide))) rfl
    | transferDone2 => exact WriteCounts.none (Or.inr (hstays hstep (by decide) (by decide))) rfl
    | allCompleted => exact WriteCounts.none (Or.inr (hstays hstep (by decide) (by decide))) rfl
    | failedAndIdleSet =>
        exact WriteCounts.none (Or.inr (hstays hstep (by decide) (by decide))) rfl
  · have hreaches : ¬c.Reaches setup .fromDevice writer.step := fun h => hconnected h.2.1
    by_cases hset : writer.step = .failedAndIdleSet
    · rw [if_pos (Or.inr hset)]
      simp only [hset]
      exact WriteCounts.none (Or.inr hreaches) rfl
    · rw [if_neg (not_or.mpr ⟨hconnected, hset⟩)]
      exact WriteCounts.none (Or.inr hreaches) rfl

theorem StreamerSetup.controllerWriteCounted_counts (hgiven : c.given = true) :
    let outcome := setup.controllerWriteCounted writer c
    WriteCounts setup .toDevice writer c outcome
      (controllerWriteStatus outcome.writer.step) := by
  unfold StreamerSetup.controllerWriteCounted
  by_cases hconnected : c.call.connected = true
  · have hstays : ∀ {step : StreamerStep}, writer.step = step → step ≠ .transferData →
        step ≠ .initialized2 → ¬c.Reaches setup .toDevice writer.step := by
      rintro _ rfl hdata hinitial ⟨-, -, -, -, hstep, -⟩
      exact hstep.elim hdata hinitial
    rw [if_pos (Or.inl hconnected)]
    dsimp only
    cases hstep : writer.step with
    | initialized2 =>
        dsimp only
        split_ifs with hinterrupt hsignal
        · refine WriteCounts.none (Or.inr ?_) rfl
          rintro ⟨-, -, hunset, -⟩
          simp [hunset] at hinterrupt
        · exact WriteCounts.none (Or.inr fun hreaches => hsignal hreaches.2.2.2.2.2) rfl
        · exact WriteCounts.none (Or.inr fun hreaches => hsignal hreaches.2.2.2.2.2) rfl
        · exact setup.controllerWriteDataCounted_counts hgiven hconnected (Or.inr hstep) rfl rfl
            rfl rfl
    | transferData =>
        exact setup.controllerWriteDataCounted_counts hgiven hconnected (Or.inl hstep) hstep rfl
          rfl rfl
    | transferDone =>
        dsimp only
        split_ifs
        all_goals exact WriteCounts.none (Or.inr (hstays hstep (by decide) (by decide))) rfl
    | failed2 =>
        dsimp only
        split_ifs
        all_goals exact WriteCounts.none (Or.inr (hstays hstep (by decide) (by decide))) rfl
    | failed => exact WriteCounts.none (Or.inr (hstays hstep (by decide) (by decide))) rfl
    | initialized => exact WriteCounts.none (Or.inr (hstays hstep (by decide) (by decide))) rfl
    | transferDone2 => exact WriteCounts.none (Or.inr (hstays hstep (by decide) (by decide))) rfl
    | allCompleted => exact WriteCounts.none (Or.inr (hstays hstep (by decide) (by decide))) rfl
    | failedAndIdleSet =>
        exact WriteCounts.none (Or.inr (hstays hstep (by decide) (by decide))) rfl
  · have hreaches : ¬c.Reaches setup .toDevice writer.step := fun h => hconnected h.2.1
    by_cases hset : writer.step = .failedAndIdleSet
    · rw [if_pos (Or.inr hset)]
      simp only [hset]
      exact WriteCounts.none (Or.inr hreaches) rfl
    · rw [if_neg (not_or.mpr ⟨hconnected, hset⟩)]
      exact WriteCounts.none (Or.inr hreaches) rfl

theorem StreamerSetup.writeCounted_counts (hgiven : c.given = true) :
    WriteCounts setup direction writer c (setup.writeCounted direction writer c).1
      (setup.writeCounted direction writer c).2 := by
  unfold StreamerSetup.writeCounted
  rw [if_neg (by simp [hgiven])]
  cases direction with
  | fromDevice => exact setup.deviceWriteCounted_counts hgiven
  | toDevice => exact setup.controllerWriteCounted_counts hgiven

theorem StreamerWriteCall.length_take (c : StreamerWriteCall) (n : ℤ) :
    ((c.bytes.take n.toNat).length : ℤ) ≤ c.bytes.length := by
  rw [List.length_take]
  omega

/-- The moves of a write are the same when `n` is taken for the length of the data
which is left of it. -/
theorem storedFor_take {bufSz head tail : ℤ} {stored : Bool × Bool} :
    StoredFor bufSz ((bytes.take (osInt bytes.length).toNat).length : ℤ) head tail stored ↔
      StoredFor bufSz (osInt bytes.length) head tail stored := by
  have hle := osInt_le (Int.natCast_nonneg bytes.length)
  have hlength : ((bytes.take (osInt bytes.length).toNat).length : ℤ) =
      max (osInt bytes.length) 0 := by
    rw [List.length_take]
    omega
  rw [hlength]
  generalize osInt bytes.length = n
  unfold StoredFor StoresToEnd StoresToTail
  have hend : 0 < max n 0 ↔ 0 < n := by omega
  have htail : head < bufSz → (bufSz - head < max n 0 ↔ bufSz - head < n) := by omega
  rw [hend]
  constructor
  · rintro ⟨hfirst, hsecond⟩
    refine ⟨hfirst, ?_⟩
    rintro ⟨hpos, hroom⟩
    exact hsecond ⟨hpos, hroom.imp_right fun hround => ⟨hround.1, hround.2.1, by omega, by omega⟩⟩
  · rintro ⟨hfirst, hsecond⟩
    refine ⟨hfirst, ?_⟩
    rintro ⟨hpos, hroom⟩
    exact hsecond ⟨hpos, hroom.imp_right fun hround => ⟨hround.1, hround.2.1, by omega, by omega⟩⟩

/-- `n_written` is right exactly when the memory block is there for each move. -/
theorem StreamerSetup.writeCounted_isRight_iff (setup : StreamerSetup)
    (direction : StreamDirection) (writer : WriterEnd) (c : StreamerWriteCall) :
    CountIsRight (setup.writeCounted direction writer c).1.nWritten c.bytes.length
        (setup.writeCounted direction writer c).1.moved
        (setup.writeCounted direction writer c).2 ↔
      c.Stored setup direction writer := by
  unfold StreamerWriteCall.Stored
  by_cases hgiven : c.given = true
  · rcases (@StreamerSetup.writeCounted_counts setup direction writer c hgiven).counts with
      ⟨hreaches, hnone, hnothing, -⟩ | ⟨hreaches, hsuccess, hcount, hmoved, -⟩
    · rw [hnone, hnothing]
      refine iff_of_true ⟨le_refl 0, Int.natCast_nonneg _, rfl, fun _ _ => rfl⟩ fun h => ?_
      rcases hreaches with hbytes | hreaches
      · rw [hbytes]
        constructor
        · rintro ⟨-, hpos, -⟩
          exact absurd hpos (by decide)
        · rintro ⟨hpos, -⟩
          exact absurd hpos (by decide)
      · exact absurd h hreaches
    · obtain ⟨hlo, hhi, hiff⟩ := streamerStoreInternal_counts writer.signals.buffer
        (c.bytes.take (osInt c.bytes.length).toNat) setup.bufSz writer.head c.tail c.stored
      have hle := c.length_take (osInt c.bytes.length)
      rw [storedFor_take] at hiff
      rw [hcount, hmoved, hsuccess]
      unfold CountIsRight
      constructor
      · rintro ⟨-, -, hequal, -⟩ _
        exact hiff.mp hequal
      · intro hstored
        exact ⟨hlo, by omega, hiff.mpr (hstored hreaches), fun h => absurd rfl h⟩
  · have hfails : setup.writeCounted direction writer c = (⟨writer, [], 0⟩, .failed) := by
      unfold StreamerSetup.writeCounted
      rw [if_pos (by simpa using hgiven)]
    rw [hfails]
    exact iff_of_true ⟨le_refl 0, Int.natCast_nonneg _, rfl, fun _ _ => rfl⟩
      fun h => absurd h.1 hgiven

end Writes
end Iocom
