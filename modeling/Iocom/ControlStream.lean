import Iocom.StreamChecksums

/-!
# The control stream of a device

`ioc_run_control_stream` moves a persistent block, or the default configuration,
from a device to its controller, and a persistent block or a program to the
device.  The controller has an `iocStream` at the other end, which
`ioc_run_stream` runs.  Both ends go on in between at every signal which one of
them gets or sets.
-/

namespace Iocom

/-- What is set to the `err` signal of a device. -/
inductive StreamerError where
  | success
  | completed
  | readingFileFailed
  | writingFileFailed
  | noAccessRight
  | timeout
  | checksumError
  | programmingFailed
  deriving DecidableEq

/-- `OSAL_IS_ERROR`. -/
def StreamerError.isError : StreamerError → Bool
  | .success | .completed => false
  | _ => true

/-- `iocStremErrSetMode`. -/
inductive StreamerErrSetMode where
  | unconditional
  | setError
  | completed
  deriving DecidableEq

/-- `ioc_set_streamer_error` of a device; `old` is what the signal is. -/
def setStreamerError (old s : StreamerError) (mode : StreamerErrSetMode) : StreamerError :=
  if mode ≠ .setError ∨ s.isError then
    if mode = .completed then (if old.isError then old else s) else s
  else old

def StreamerSetup.chunkSz (setup : StreamerSetup) : ℕ := setup.bufSz - 1

def StreamerSetup.chunkRead (setup : StreamerSetup) (call : StreamerCall) (seen : WriterSeen)
    (cs : ℕ) : StreamerReadCall :=
  ⟨true, setup.chunkSz, false, call, seen, cs⟩

def Transfer.afterCounted (t : Transfer) (seen : ℕ) (result : ReadOutcome × StreamerStatus) :
    Transfer :=
  t.afterRead seen (result.1.reader, result.1.consumed false, result.2)

/-- `ioc_streamer_close` of the writing end. -/
def WriterEnd.close (writer : WriterEnd) : WriterEnd :=
  let idle := writer.setSignal .idle
  idle.set { idle.signals with head := 0 }

/-- `ioc_streamer_close` of the reading end. -/
def ReaderEnd.close (reader : ReaderEnd) : ReaderEnd :=
  let idle := reader.setSignal .idle
  idle.set { idle.signals with tail := 0 }

/-! ## From the device -/

/-- What is selected: a persistent block, or the default configuration.  There is
no content where the block cannot be opened, or no configuration. -/
structure ControlSource where
  content : Option (List UInt8)
  isDefault : Bool

def ControlSource.bytes (source : ControlSource) : List UInt8 := source.content.getD []

/-- Where a device is in `ioc_run_control_stream`: whether its stream is closed,
and otherwise where it is in `ioc_ctrl_stream_from_device`. -/
inductive ControlSendPoint where
  | closed
  | between
  | moving (bytes : ℤ)
  | finishing
  | done
  deriving DecidableEq

/-- A transfer from a device to its controller, with the `iocControlStreamState`
of the device. -/
structure ControlSend where
  transfer : Transfer
  source : ControlSource
  pos : ℕ
  persistent : Bool
  persistentOk : Bool
  err : StreamerError
  point : ControlSendPoint

namespace ControlSend

/-- `ioc_run_control_stream` opens the stream when it gets the command. -/
def openStream (s : ControlSend) (k : ℕ) : ControlSend :=
  let opened := s.source.isDefault || s.source.content.isSome
  { s with
    transfer := { s.transfer with seenByWriter := k }
    pos := 0
    persistent := !s.source.isDefault && s.source.content.isSome
    persistentOk := opened
    err := if opened then .success else setStreamerError .success .readingFileFailed .setError
    point := .between }

/-- A call of `ioc_ctrl_stream_from_device` begins.  `transferring_default_config`
stays set, so the loop is entered again when all of it has been written. -/
def begin (setup : StreamerSetup) (s : ControlSend) (k : ℕ) (connected : Bool) (tail : ℤ) :
    ControlSend :=
  if s.persistent ∨ s.source.isDefault then
    { s with
      transfer := { s.transfer with seenByWriter := k }
      point := .moving
        (if connected then streamerTxAvailable setup.bufSz s.transfer.writer.head tail else -1) }
  else { s with point := .finishing }

/-- What the loop reads; `none` is no default configuration, or -1 for a block. -/
def readSource (s : ControlSend) (rdnow : ℕ) (readFails : Bool) : Option (List UInt8) :=
  if readFails ∧ !s.source.isDefault then none
  else s.source.content.map fun content => (content.drop s.pos).take rdnow

def leaveLoop (s : ControlSend) : ControlSend :=
  { s with persistent := false, point := .finishing }

/-- What is outside of a round: whether `os_has_elapsed`, whether reading the
block fails, and what the write gets. -/
structure Round where
  timedOut : Bool
  readFails : Bool
  call : StreamerCall

/-- A round of the loop; `k` is the version of the signals which its write gets. -/
def round (setup : StreamerSetup) (s : ControlSend) (bytes : ℤ) (input : Round) (k : ℕ)
    (cmd : StreamerState) (tail : ℤ) : ControlSend :=
  if bytes ≤ 0 then
    if input.timedOut then
      leaveLoop { s with err := setStreamerError s.err .timeout .setError }
    else { s with point := .between }
  else
    let rdnow := min bytes.toNat setup.chunkSz
    match s.readSource rdnow input.readFails with
    | none => leaveLoop { s with persistentOk := false }
    | some data =>
        let s := { s with pos := s.pos + data.length }
        if data = [] then leaveLoop s
        else
          let result := setup.deviceWrite s.transfer.writer { input.call with interrupt := false }
            cmd tail (some data)
          let s := { s with transfer := s.transfer.afterWrite k result }
          if deviceStatus result.writer.step ≠ .success then leaveLoop s
          else if data.length < rdnow then leaveLoop s
          else { s with point := .moving (bytes - data.length) }

/-- The end of `ioc_ctrl_stream_from_device`: `ioc_streamer_flush`, and closing
the stream when it is not pending. -/
def finish (setup : StreamerSetup) (s : ControlSend) (call : StreamerCall) (k : ℕ)
    (cmd : StreamerState) (tail : ℤ) : ControlSend :=
  let err := if s.persistentOk then s.err
    else setStreamerError s.err .readingFileFailed .setError
  let result := setup.deviceWrite s.transfer.writer
    { call with interrupt := !s.persistentOk } cmd tail none
  let transfer := s.transfer.afterWrite k result
  if deviceStatus result.writer.step = .success then
    { s with transfer := transfer, err := err, point := .between }
  else
    { s with
      transfer := { transfer with writer := transfer.writer.close }
      err := setStreamerError err .completed .completed
      point := .done }

/-- `ioc_run_stream` of the controller, which reads. -/
def runStream (setup : StreamerSetup) (negative : ℕ → ℕ) (s : ControlSend)
    (call : StreamerCall) (k : ℕ) (seen : WriterSeen) (cs : ℕ) : ControlSend :=
  let transfer := s.transfer.afterCounted k
    (setup.readCounted negative .fromDevice s.transfer.reader
      (setup.chunkRead { call with interrupt := false } seen cs))
  if transfer.lastRead = .success then { s with transfer := transfer }
  else { s with transfer := { transfer with reader := transfer.reader.close } }

end ControlSend

/-- The writing end which has told that all is written neither times out nor
loses its connection. -/
def WriterEnd.Stays (writer : WriterEnd) (call : StreamerCall) : Prop :=
  writer.step = .transferDone ∨ writer.step = .allCompleted →
    call.elapsed = false ∧ call.connected = true

section Sending

variable (setup : StreamerSetup) (negative : ℕ → ℕ)

/-- A step of the device, up to where it gets signals, or a call of the
controller, which goes on until its stream is closed. -/
inductive ControlSendStep : ControlSend → ControlSend → Prop where
  | openStream (s : ControlSend) (k : ℕ) (cmd : ReaderSignals)
      (hpoint : s.point = .closed) (hseen : s.transfer.seenByWriter ≤ k)
      (hcmd : s.transfer.reader.published[k]? = some cmd) (hrunning : cmd.signal = .running) :
      ControlSendStep s (s.openStream k)
  | begin (s : ControlSend) (k : ℕ) (connected : Bool) (tail : ReaderSignals)
      (hpoint : s.point = .between) (hseen : s.transfer.seenByWriter ≤ k)
      (htail : s.transfer.reader.published[k]? = some tail) :
      ControlSendStep s (s.begin setup k connected tail.tail)
  | round (s : ControlSend) (bytes : ℤ) (input : ControlSend.Round) (k k₁ : ℕ)
      (first second : ReaderSignals) (hpoint : s.point = .moving bytes)
      (hcall : s.transfer.writer.Stays input.call)
      (hseen : s.transfer.seenByWriter ≤ k) (horder : k ≤ k₁)
      (hfirst : s.transfer.reader.published[k]? = some first)
      (hsecond : s.transfer.reader.published[k₁]? = some second) :
      ControlSendStep s (s.round setup bytes input k₁ first.signal second.tail)
  | finish (s : ControlSend) (call : StreamerCall) (k k₁ : ℕ) (first second : ReaderSignals)
      (hpoint : s.point = .finishing) (hcall : s.transfer.writer.Stays call)
      (hseen : s.transfer.seenByWriter ≤ k) (horder : k ≤ k₁)
      (hfirst : s.transfer.reader.published[k]? = some first)
      (hsecond : s.transfer.reader.published[k₁]? = some second) :
      ControlSendStep s (s.finish setup call k₁ first.signal second.tail)
  | runStream (s : ControlSend) (call : StreamerCall) (view : Mem)
      (bufferConnected : Bool × Bool) (k k₁ k₂ : ℕ) (first second third : WriterSignals)
      (hopen : s.transfer.lastRead = .success)
      (hseen : s.transfer.seenByReader ≤ k) (horder : k ≤ k₁) (horder' : k₁ ≤ k₂)
      (hfirst : s.transfer.writer.published[k]? = some first)
      (hsecond : s.transfer.writer.published[k₁]? = some second)
      (hview : s.transfer.Views setup k₁ view)
      (hthird : s.transfer.writer.published[k₂]? = some third) :
      ControlSendStep s
        (s.runStream setup negative call k₂
          ⟨first.signal, second.head, view, bufferConnected⟩ third.cs)

end Sending

def ControlSendStart (setup : StreamerSetup) (s : ControlSend) : Prop :=
  TransferStart setup s.transfer ∧ s.err = .success ∧ s.point = .closed

/-! ## To the device -/

/-- Where a device is in `ioc_run_control_stream`, and otherwise in
`ioc_ctrl_stream_to_device`. -/
inductive ControlReceivePoint where
  | closed
  | between
  | reading
  | done
  deriving DecidableEq

/-- A transfer from a controller, which writes `content`, to its device; `program`
is whether a program is selected, and not a persistent block.  `stored` is what the
block or the device programming has got, `storeFailed` whether it has failed to take
some, and `kept` whether it has been told that all is well. -/
structure ControlReceive where
  transfer : Transfer
  content : List UInt8
  pos : ℕ
  program : Bool
  persistent : Bool
  stored : List UInt8
  storeFailed : Bool
  kept : Bool
  err : StreamerError
  point : ControlReceivePoint

namespace ControlReceive

/-- `ioc_run_control_stream` opens the stream, and the block or the device
programming; when the programming cannot be started the stream is closed again. -/
def openStream (s : ControlReceive) (k : ℕ) (opens : Bool) : ControlReceive :=
  let s := { s with transfer := { s.transfer with seenByReader := k } }
  if s.program then
    if opens then { s with err := .success, point := .between }
    else { s with err := setStreamerError .success .programmingFailed .setError }
  else
    { s with
      persistent := opens
      err := if opens then .success
        else setStreamerError .success .noAccessRight .setError
      point := .between }

/-- The end of `ioc_ctrl_stream_to_device`, with the status of the last read. -/
def close (s : ControlReceive) (status : StreamerStatus) : ControlReceive :=
  let s := { s with
    transfer := { s.transfer with reader := s.transfer.reader.close }
    point := .done }
  if s.program then { s with kept := status = .completed }
  else if s.persistent then
    { s with
      persistent := false
      kept := status = .completed
      err := setStreamerError s.err .completed .completed }
  else s

def goOn (s : ControlReceive) (status : StreamerStatus) : ControlReceive :=
  if status = .success then s else s.close status

/-- What has been read is stored.  A block which cannot take some is written on,
while a failing device programming ends the transfer. -/
def store (s : ControlReceive) (bytes : List UInt8) (storeFails : Bool)
    (status : StreamerStatus) : ControlReceive :=
  if s.program then
    if storeFails then
      close { s with
        storeFailed := true
        err := setStreamerError s.err .programmingFailed .unconditional } .failed
    else goOn { s with stored := s.stored ++ bytes } status
  else if s.persistent then
    if storeFails then
      goOn { s with
        storeFailed := true
        err := setStreamerError s.err .writingFileFailed .unconditional } status
    else goOn { s with stored := s.stored ++ bytes } status
  else s.goOn status

/-- What is outside of a round: what the read gets, whether `os_persistent_write` or
`osal_program_device` fails, and what it takes when it is given a count of -1. -/
structure Round where
  call : StreamerCall
  bufferConnected : Bool × Bool
  storeFails : Bool
  negativeTaken : List UInt8

/-- What a round goes on to once `n_read` and the bytes are known. -/
def afterRead (s : ControlReceive) (input : Round) (result : ReadOutcome × StreamerStatus) :
    ControlReceive :=
  if result.1.nRead = 0 then
    if result.2 = .success then { s with point := .between } else s.close result.2
  else
    s.store (if result.1.nRead < 0 then input.negativeTaken else result.1.moved)
      input.storeFails result.2

/-- A round of the loop of `ioc_ctrl_stream_to_device`. -/
def round (setup : StreamerSetup) (negative : ℕ → ℕ) (s : ControlReceive) (input : Round)
    (k : ℕ) (seen : WriterSeen) (cs : ℕ) : ControlReceive :=
  let result := setup.readCounted negative .toDevice s.transfer.reader
    (setup.chunkRead { input.call with interrupt := !(s.persistent || s.program) } seen cs)
  let err := if result.2 = StreamerStatus.checksumError then
      setStreamerError s.err .checksumError .setError
    else s.err
  afterRead { s with transfer := s.transfer.afterCounted k result, err := err } input result

/-- `ioc_run_stream` of the controller, which writes. -/
def runStream (setup : StreamerSetup) (s : ControlReceive) (call : StreamerCall) (k : ℕ)
    (state : StreamerState) (tail : ℤ) : ControlReceive :=
  let result := setup.controllerWrite s.transfer.writer { call with interrupt := false } state
    tail (if s.pos < s.content.length then some (s.content.drop s.pos) else none)
  { s with
    transfer := s.transfer.afterWrite k result
    pos := s.pos + result.moved.length }

end ControlReceive

section Receiving

variable (setup : StreamerSetup) (negative : ℕ → ℕ)

/-- A step of the device, up to where it gets signals, or a call of the
controller. -/
inductive ControlReceiveStep : ControlReceive → ControlReceive → Prop where
  | openStream (s : ControlReceive) (k : ℕ) (cmd : WriterSignals) (opens : Bool)
      (hpoint : s.point = .closed) (hseen : s.transfer.seenByReader ≤ k)
      (hcmd : s.transfer.writer.published[k]? = some cmd) (hrunning : cmd.signal = .running) :
      ControlReceiveStep s (s.openStream k opens)
  | begin (s : ControlReceive) (hpoint : s.point = .between) :
      ControlReceiveStep s { s with point := .reading }
  | round (s : ControlReceive) (input : ControlReceive.Round) (view : Mem) (k k₁ k₂ : ℕ)
      (first second third : WriterSignals) (hpoint : s.point = .reading)
      (hseen : s.transfer.seenByReader ≤ k) (horder : k ≤ k₁) (horder' : k₁ ≤ k₂)
      (hfirst : s.transfer.writer.published[k]? = some first)
      (hsecond : s.transfer.writer.published[k₁]? = some second)
      (hview : s.transfer.Views setup k₁ view)
      (hthird : s.transfer.writer.published[k₂]? = some third) :
      ControlReceiveStep s
        (s.round setup negative input k₂
          ⟨first.signal, second.head, view, input.bufferConnected⟩ third.cs)
  | runStream (s : ControlReceive) (call : StreamerCall) (k k₁ : ℕ)
      (first second : ReaderSignals) (hseen : s.transfer.seenByWriter ≤ k) (horder : k ≤ k₁)
      (hfirst : s.transfer.reader.published[k]? = some first)
      (hsecond : s.transfer.reader.published[k₁]? = some second) :
      ControlReceiveStep s (s.runStream setup call k₁ first.signal second.tail)

end Receiving

/-- Both streams are closed at the device, and the controller has opened its own. -/
def ControlReceiveStart (setup : StreamerSetup) (s : ControlReceive) : Prop :=
  TransferStart setup s.transfer ∧ s.pos = 0 ∧ s.persistent = false ∧ s.stored = [] ∧
    s.storeFailed = false ∧ s.kept = false ∧ s.err = .success ∧ s.point = .closed

end Iocom
