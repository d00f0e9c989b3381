import Iocom.Streamer

/-!
# Transfers between a controller and a device

The state machines of the two ends of a stream (`ioc_streamer_device_write`,
`ioc_streamer_controller_read` and so on).  Each end has the signals which it
sets, and the versions of them which it has published: the other end sees one of
these, and later never an earlier one.
-/

namespace Iocom

/-- `iocStreamerState`. -/
inductive StreamerState where
  | idle
  | running
  | completed
  | interrupt
  deriving DecidableEq

/-- `iocStreamerStep`. -/
inductive StreamerStep where
  | initialized
  | initialized2
  | transferData
  | transferDone
  | transferDone2
  | allCompleted
  | failed
  | failed2
  | failedAndIdleSet
  deriving DecidableEq

inductive StreamerStatus where
  | success
  | completed
  | failed
  | checksumError
  deriving DecidableEq

/-- How both ends of a stream are opened.  `os_checksum` goes on from byte to
byte. -/
structure StreamerSetup where
  bufSz : ℕ
  bufSz_pos : 0 < bufSz
  checksumInit : ℕ
  checksumByte : ℕ → UInt8 → ℕ
  disableChecksum : Bool

def StreamerSetup.checksum (setup : StreamerSetup) (bytes : List UInt8) (checksum : ℕ) : ℕ :=
  bytes.foldl setup.checksumByte checksum

/-- What a call gets from outside: whether `os_has_elapsed`, whether the flag
`OSAL_STREAM_INTERRUPT` is set and whether the signals of the other end are
connected. -/
structure StreamerCall where
  elapsed : Bool
  interrupt : Bool
  connected : Bool

/-- The signals of the writing end: its `state` or `cmd`, and so on.  `count`
is how many bytes have been written. -/
structure WriterSignals where
  signal : StreamerState
  head : ℤ
  buffer : Mem
  cs : ℕ
  count : ℕ

structure WriterEnd where
  step : StreamerStep
  head : ℤ
  checksum : ℕ
  signals : WriterSignals
  published : List WriterSignals

/-- The signals of the reading end; `count` is how many bytes have been read. -/
structure ReaderSignals where
  signal : StreamerState
  tail : ℤ
  count : ℕ

structure ReaderEnd where
  step : StreamerStep
  tail : ℤ
  checksum : ℕ
  signals : ReaderSignals
  published : List ReaderSignals

/-! ## Writing -/

/-- `ioc_set` of signals of the writing end. -/
def WriterEnd.set (writer : WriterEnd) (signals : WriterSignals) : WriterEnd :=
  { writer with signals := signals, published := writer.published ++ [signals] }

def WriterEnd.setSignal (writer : WriterEnd) (signal : StreamerState) : WriterEnd :=
  writer.set { writer.signals with signal := signal }

def WriterEnd.to (writer : WriterEnd) (step : StreamerStep) : WriterEnd :=
  { writer with step := step }

structure WriterResult where
  writer : WriterEnd
  moved : List UInt8

variable (setup : StreamerSetup)

/-- `ioc_streamer_write_internal` and the checksum of what was written. -/
def StreamerSetup.writeInternal (writer : WriterEnd) (bytes : List UInt8) (tail : ℤ) :
    WriterResult :=
  let n := osInt bytes.length
  let ring := streamerWriteInternal writer.signals.buffer (bytes.take n.toNat) setup.bufSz
    writer.head tail
  let stored :=
    if ring.nbytes ≠ 0 then
      { writer with head := ring.head }.set
        { writer.signals with
          buffer := ring.buffer
          head := ring.head
          count := writer.signals.count + ring.moved.length }
    else writer
  { writer :=
      if setup.disableChecksum then stored
      else { stored with checksum := setup.checksum ring.moved stored.checksum }
    moved := ring.moved }

def WriterEnd.endOfData (writer : WriterEnd) : WriterEnd :=
  ((writer.set { writer.signals with cs := writer.checksum }).setSignal .completed).to
    .transferDone

/-- The step `IOC_SSTEP_TRANSFER_DATA` of `ioc_streamer_device_write`; the data
is `none` for -1. -/
def StreamerSetup.deviceWriteData
    (writer : WriterEnd) (call : StreamerCall) (cmd : StreamerState) (tail : ℤ)
    (data : Option (List UInt8)) : WriterResult :=
  if (cmd ≠ .running ∧ cmd ≠ .completed) ∨ call.interrupt then ⟨writer.to .failed, []⟩
  else if tail < 0 ∨ setup.bufSz ≤ tail then ⟨writer.to .failed, []⟩
  else
    match data with
    | some bytes =>
        let result := setup.writeInternal writer bytes tail
        if result.moved = [] ∧ bytes ≠ [] ∧ call.elapsed then ⟨writer.to .failed, []⟩
        else result
    | none => ⟨writer.endOfData, []⟩

/-- `ioc_streamer_device_write`. -/
def StreamerSetup.deviceWrite
    (writer : WriterEnd) (call : StreamerCall) (cmd : StreamerState) (tail : ℤ)
    (data : Option (List UInt8)) : WriterResult :=
  let writer :=
    if call.connected ∨ writer.step = .failedAndIdleSet then writer
    else (writer.setSignal .idle).to .failedAndIdleSet
  let waiting : Bool := cmd = .running ∧ call.connected ∧ !call.elapsed
  match writer.step with
  | .initialized =>
      if cmd ≠ .running ∧ cmd ≠ .completed then ⟨writer.to .failed, []⟩
      else
        setup.deviceWriteData ((writer.setSignal .running).to .transferData) call cmd tail data
  | .transferData => setup.deviceWriteData writer call cmd tail data
  | .transferDone =>
      if waiting then ⟨writer, []⟩
      else
        let idle := writer.setSignal .idle
        ⟨(idle.set { idle.signals with head := 0 }).to .allCompleted, []⟩
  | .failed => ⟨(writer.setSignal .interrupt).to .failed2, []⟩
  | .failed2 =>
      if waiting then ⟨writer, []⟩
      else
        let idle := writer.setSignal .idle
        ⟨(idle.set { idle.signals with head := 0 }).to .failedAndIdleSet, []⟩
  | _ => ⟨writer, []⟩

/-- The step `IOC_SSTEP_TRANSFER_DATA` of `ioc_streamer_controller_write`. -/
def StreamerSetup.controllerWriteData
    (writer : WriterEnd) (call : StreamerCall) (state : StreamerState) (tail : ℤ)
    (data : Option (List UInt8)) : WriterResult :=
  if state ≠ .running ∨ call.interrupt then ⟨writer.to .failed, []⟩
  else
    match data with
    | some [] => if call.elapsed then ⟨writer.to .failed, []⟩ else ⟨writer, []⟩
    | some bytes =>
        if tail < 0 ∨ setup.bufSz ≤ tail then ⟨writer.to .failed, []⟩
        else setup.writeInternal writer bytes tail
    | none => ⟨writer.endOfData, []⟩

/-- `ioc_streamer_controller_write`. -/
def StreamerSetup.controllerWrite
    (writer : WriterEnd) (call : StreamerCall) (state : StreamerState) (tail : ℤ)
    (data : Option (List UInt8)) : WriterResult :=
  let writer :=
    if call.connected ∨ writer.step = .failedAndIdleSet then writer
    else (writer.setSignal .idle).to .failedAndIdleSet
  let waiting : Bool := state = .running ∧ !call.elapsed
  match writer.step with
  | .initialized => ⟨(writer.setSignal .running).to .initialized2, []⟩
  | .initialized2 =>
      if call.interrupt then ⟨writer.to .failed, []⟩
      else if state ≠ .running then
        if call.elapsed then ⟨writer.to .failed, []⟩ else ⟨writer, []⟩
      else setup.controllerWriteData (writer.to .transferData) call state tail data
  | .transferData => setup.controllerWriteData writer call state tail data
  | .transferDone =>
      if waiting then ⟨writer, []⟩
      else ⟨(writer.setSignal .idle).to .allCompleted, []⟩
  | .failed => ⟨(writer.setSignal .interrupt).to .failed2, []⟩
  | .failed2 =>
      if waiting then ⟨writer, []⟩
      else ⟨(writer.setSignal .idle).to .failedAndIdleSet, []⟩
  | _ => ⟨writer, []⟩

/-! ## Reading -/

/-- `ioc_set` of signals of the reading end. -/
def ReaderEnd.set (reader : ReaderEnd) (signals : ReaderSignals) : ReaderEnd :=
  { reader with signals := signals, published := reader.published ++ [signals] }

def ReaderEnd.setSignal (reader : ReaderEnd) (signal : StreamerState) : ReaderEnd :=
  reader.set { reader.signals with signal := signal }

def ReaderEnd.to (reader : ReaderEnd) (step : StreamerStep) : ReaderEnd :=
  { reader with step := step }

structure ReaderResult where
  reader : ReaderEnd
  moved : List UInt8

/-- What a reading end gets of the writing end: its `state` or `cmd`, the head
and the buffer. -/
structure WriterSeen where
  signal : StreamerState
  head : ℤ
  view : Mem
  bufferConnected : Bool × Bool

/-- The step `IOC_SSTEP_TRANSFER_DATA` of the reading functions, with the step
which follows when the transfer is completed. -/
def StreamerSetup.readData
    (reader : ReaderEnd) (call : StreamerCall) (seen : WriterSeen) (n : ℤ)
    (done : ReaderEnd → ReaderEnd) : ReaderResult :=
  if (seen.signal ≠ .running ∧ seen.signal ≠ .completed) ∨ call.interrupt then
    ⟨reader.to .failed, []⟩
  else if seen.head < 0 ∨ setup.bufSz ≤ seen.head then ⟨reader.to .failed, []⟩
  else
    match streamerReadInternal seen.view setup.bufSz (osInt n) seen.head reader.tail
        seen.bufferConnected with
    | none => ⟨reader.to .failed, []⟩
    | some ring =>
        let moved :=
          if ring.nbytes ≠ 0 then
            { reader with tail := ring.ltail }.set
              { reader.signals with
                tail := ring.ltail
                count := reader.signals.count + ring.moved.length }
          else reader
        if seen.signal = .running then
          if ring.nbytes = 0 ∧ call.elapsed then ⟨reader.to .failed, []⟩
          else ⟨moved, ring.moved⟩
        else ⟨done moved, ring.moved⟩

/-- `ioc_streamer_device_read`. -/
def StreamerSetup.deviceRead
    (reader : ReaderEnd) (call : StreamerCall) (seen : WriterSeen) (n : ℤ) : ReaderResult :=
  let reader :=
    if call.connected ∨ reader.step = .failedAndIdleSet then reader
    else (reader.setSignal .idle).to .failedAndIdleSet
  let done := fun reader : ReaderEnd => reader.to .transferDone
  match reader.step with
  | .initialized =>
      if seen.signal ≠ .running ∧ seen.signal ≠ .completed then ⟨reader.to .failed, []⟩
      else setup.readData ((reader.setSignal .running).to .transferData) call seen n done
  | .transferData => setup.readData reader call seen n done
  | .transferDone => ⟨(reader.setSignal .idle).to .allCompleted, []⟩
  | .failed => ⟨(reader.setSignal .interrupt).to .failed2, []⟩
  | .failed2 =>
      if (seen.signal = .running ∨ seen.signal = .completed) ∧ call.connected ∧
          !call.elapsed then
        ⟨reader, []⟩
      else ⟨(reader.setSignal .idle).to .failedAndIdleSet, []⟩
  | _ => ⟨reader, []⟩

/-- `ioc_streamer_controller_read`. -/
def StreamerSetup.controllerRead
    (reader : ReaderEnd) (call : StreamerCall) (seen : WriterSeen) (n : ℤ) : ReaderResult :=
  let reader :=
    if call.connected ∨ reader.step = .failedAndIdleSet then reader
    else (reader.setSignal .idle).to .failedAndIdleSet
  let done := fun reader : ReaderEnd => (reader.setSignal .idle).to .transferDone2
  match reader.step with
  | .initialized => ⟨(reader.setSignal .running).to .initialized2, []⟩
  | .initialized2 =>
      if seen.signal ≠ .running ∧ seen.signal ≠ .completed then
        if call.elapsed then ⟨reader.to .failed, []⟩ else ⟨reader, []⟩
      else ⟨reader.to .transferData, []⟩
  | .transferData => setup.readData reader call seen n done
  | .transferDone => ⟨done reader, []⟩
  | .transferDone2 =>
      if (seen.signal = .running ∨ seen.signal = .completed) ∧ !call.elapsed then ⟨reader, []⟩
      else ⟨(reader.set { reader.signals with tail := 0 }).to .allCompleted, []⟩
  | .failed => ⟨(reader.setSignal .idle).to .failed2, []⟩
  | .failed2 =>
      if seen.signal = .running ∧ !call.elapsed then ⟨reader, []⟩
      else ⟨reader.to .failedAndIdleSet, []⟩
  | _ => ⟨reader, []⟩

def deviceStatus : StreamerStep → StreamerStatus
  | .transferData | .transferDone | .failed | .failed2 => .success
  | .allCompleted => .completed
  | _ => .failed

def controllerReadStatus : StreamerStep → StreamerStatus
  | .initialized2 | .transferData | .transferDone | .transferDone2 | .failed | .failed2 =>
      .success
  | .allCompleted => .completed
  | _ => .failed

/-- The end of `ioc_streamer_read`: the checksum of what was read, compared with
the one of the writing end when all is done. -/
def StreamerSetup.checkRead
    (result : ReaderResult) (status : StreamerStatus) (cs : ℕ) :
    ReaderEnd × List UInt8 × StreamerStatus :=
  if setup.disableChecksum then (result.reader, result.moved, status)
  else
    let checksum := setup.checksum result.moved result.reader.checksum
    ({ result.reader with checksum := checksum }, result.moved,
      if status = .completed ∧ checksum ≠ cs then .checksumError else status)

/-! ## Both ends -/

inductive StreamDirection where
  | fromDevice
  | toDevice
  deriving DecidableEq

def undisturbedCall : StreamerCall := ⟨false, false, true⟩

/-- `ioc_streamer_write`. -/
def StreamerSetup.write (direction : StreamDirection) (writer : WriterEnd)
    (signal : StreamerState) (tail : ℤ) (data : Option (List UInt8)) : WriterResult :=
  match direction with
  | .fromDevice => setup.deviceWrite writer undisturbedCall signal tail data
  | .toDevice => setup.controllerWrite writer undisturbedCall signal tail data

/-- `ioc_streamer_read`: the reading end after it, what was read and the
status. -/
def StreamerSetup.read (direction : StreamDirection) (reader : ReaderEnd) (seen : WriterSeen)
    (n : ℤ) (cs : ℕ) : ReaderEnd × List UInt8 × StreamerStatus :=
  match direction with
  | .fromDevice =>
      let result := setup.controllerRead reader undisturbedCall seen n
      setup.checkRead result (controllerReadStatus result.reader.step) cs
  | .toDevice =>
      let result := setup.deviceRead reader undisturbedCall seen n
      setup.checkRead result (deviceStatus result.reader.step) cs

/-- A transfer in one direction: both ends, how far each has seen what the other
one published, the bytes which were written and read, and what the last read
returned. -/
structure Transfer where
  writer : WriterEnd
  reader : ReaderEnd
  seenByWriter : ℕ
  seenByReader : ℕ
  written : List UInt8
  read : List UInt8
  lastRead : StreamerStatus

inductive TransferCall where
  | write (data : Option (List UInt8)) (signal : StreamerState) (tail : ℤ)
  | read (n : ℤ) (seen : WriterSeen) (cs : ℕ)

def Transfer.afterWrite (t : Transfer) (seen : ℕ) (result : WriterResult) : Transfer :=
  { t with
    writer := result.writer
    seenByWriter := seen
    written := t.written ++ result.moved }

def Transfer.afterRead (t : Transfer) (seen : ℕ)
    (result : ReaderEnd × List UInt8 × StreamerStatus) : Transfer :=
  { t with
    reader := result.1
    seenByReader := seen
    read := t.read ++ result.2.1
    lastRead := result.2.2 }

/-- The transfer after a call; `seen` is the latest version of the signals which
the call got. -/
def Transfer.call (setup : StreamerSetup) (direction : StreamDirection) (t : Transfer)
    (seen : ℕ) : TransferCall → Transfer
  | .write data signal tail =>
      t.afterWrite seen (setup.write direction t.writer signal tail data)
  | .read n got cs => t.afterRead seen (setup.read direction t.reader got n cs)

/-- The buffer as a reader can get it: each cell of the version `k` or a later
one. -/
def Transfer.Views (setup : StreamerSetup) (t : Transfer) (k : ℕ) (view : Mem) : Prop :=
  ∀ i : ℕ, i < setup.bufSz → ∃ j signals, k ≤ j ∧ t.writer.published[j]? = some signals ∧
    view i = signals.buffer i

/-- A call, with the versions of the signals in the order in which it gets
them. -/
inductive TransferStep (setup : StreamerSetup) (direction : StreamDirection) :
    Transfer → TransferCall → Transfer → Prop where
  | write (t : Transfer) (data : Option (List UInt8)) (k k₁ : ℕ) (first second : ReaderSignals)
      (hseen : t.seenByWriter ≤ k) (horder : k ≤ k₁)
      (hfirst : t.reader.published[k]? = some first)
      (hsecond : t.reader.published[k₁]? = some second) :
      TransferStep setup direction t (.write data first.signal second.tail)
        (t.call setup direction k₁ (.write data first.signal second.tail))
  | read (t : Transfer) (n : ℤ) (hn : 0 < n) (view : Mem) (k k₁ k₂ : ℕ)
      (first second third : WriterSignals)
      (hseen : t.seenByReader ≤ k) (horder : k ≤ k₁) (horder' : k₁ ≤ k₂)
      (hfirst : t.writer.published[k]? = some first)
      (hsecond : t.writer.published[k₁]? = some second)
      (hview : t.Views setup k₁ view)
      (hthird : t.writer.published[k₂]? = some third) :
      TransferStep setup direction t
        (.read n ⟨first.signal, second.head, view, (true, true)⟩ third.cs)
        (t.call setup direction k₂
          (.read n ⟨first.signal, second.head, view, (true, true)⟩ third.cs))

def TransferStart (setup : StreamerSetup) (t : Transfer) : Prop :=
  ∃ buffer,
    let writerSignals : WriterSignals := ⟨.idle, 0, buffer, 0, 0⟩
    let readerSignals : ReaderSignals := ⟨.idle, 0, 0⟩
    t = ⟨⟨.initialized, 0, setup.checksumInit, writerSignals, [writerSignals]⟩,
      ⟨.initialized, 0, setup.checksumInit, readerSignals, [readerSignals]⟩,
      0, 0, [], [], .success⟩

end Iocom
