import Iocom.EventQueue
import Iocom.Bricks
import Iocom.StreamerTransfer

/-!
# Whether the root lock is given back

The functions of a brick buffer which take the lock of the root object, and the queue of
events, whose caller has taken it.  Where memory runs out or the stream has nothing more
to take, they return between the lock and the unlock.
-/

namespace Iocom

open LockProgram

inductive BrickBufferStatus where
  | success
  | nothingToDo
  | completed
  | failed
  | checksumError
  | memoryAllocationFailed
  deriving DecidableEq

/-- `OSAL_IS_ERROR`. -/
def BrickBufferStatus.isError : BrickBufferStatus → Bool
  | .success | .nothingToDo | .completed => false
  | .failed | .checksumError | .memoryAllocationFailed => true

def StreamerStatus.toBrickBuffer : StreamerStatus → BrickBufferStatus
  | .success => .success
  | .completed => .completed
  | .failed => .failed
  | .checksumError => .checksumError

/-- The field of the streamer which `ioc_run_brick_send` sets. -/
structure BrickStream where
  writeTimeoutMs : ℕ
  deriving DecidableEq

/-- `iocBrickBuffer`; `buf` is the allocated memory, and `stateConnected` the bit which is
set in `signals->state`. -/
structure BrickBuffer where
  flatBuffer : Bool
  buf : Option (List UInt8)
  bufSz : ℕ
  bufN : ℕ
  pos : ℕ
  stream : Option BrickStream
  timeoutMs : ℕ
  prevCmd : ℤ
  flatReadyForBrick : Bool
  flatConnected : Bool
  stateConnected : Bool
  deriving DecidableEq

/-- What `ioc_run_brick_send` gets from outside: the signal `cmd` with its state bit, the
streams it opens and writes to, and whether the frame timer has elapsed. -/
structure BrickSendCall where
  cmd : ℤ
  connected : Bool
  opened : Option BrickStream
  write : StreamerStatus
  nWritten : ℕ
  elapsed : Bool

/-- `IOC_STREAM_RUNNING`. -/
def iocStreamRunning : ℤ := 1

namespace BrickBuffer

/-- `ioc_free_brick_buffer`. -/
def freeBrickBuffer : LockProgram BrickBuffer Unit := do
  let b ← read
  if !b.flatBuffer && b.buf.isSome then
    lock
    change fun b => { b with buf := none, bufSz := 0 }
    unlock
  else return ()

/-- `ioc_allocate_brick_buffer`; `granted` is how many bytes `os_malloc` allocates. -/
def allocateBrickBuffer (bufSz : ℕ) (granted : Option ℕ) :
    LockProgram BrickBuffer BrickBufferStatus := do
  let b ← read
  if b.flatBuffer then return .success
  else if bufSz ≤ 24 ∨ maxBrickAlloc < bufSz then return .failed
  else
    lock
    change fun b => { b with bufN := 0, pos := 0 }
    if b.bufSz ≠ bufSz then
      freeBrickBuffer
      match granted with
      | none =>
          change fun b => { b with buf := none }
          return .memoryAllocationFailed
      | some allocSz =>
          change fun b => { b with buf := some (List.replicate allocSz 0), bufSz := bufSz }
          unlock
          return .success
    else
      unlock
      return .success

/-- `ioc_send_brick_data`, where the stream takes `nWritten` bytes. -/
def sendBrickData (write : StreamerStatus) (nWritten : ℕ) :
    LockProgram BrickBuffer BrickBufferStatus := do
  lock
  let b ← read
  if b.pos < b.bufN then
    if write ≠ .success then return write.toBrickBuffer
    else
      change fun b => { b with pos := b.pos + nWritten }
      change fun b => { b with bufN := if b.bufN ≤ b.pos then 0 else b.bufN }
      unlock
      return .success
  else
    change fun b => { b with bufN := 0 }
    unlock
    return .success

/-- The stream of `ioc_run_brick_send`, once it is open. -/
def runStream (call : BrickSendCall) : LockProgram BrickBuffer BrickBufferStatus := do
  let b ← read
  let s ←
    if b.pos < b.bufN then sendBrickData call.write call.nWritten
    else
      pure
        (if call.write.toBrickBuffer.isError then call.write.toBrickBuffer else .nothingToDo)
  if s.isError then
    change fun b => { b with stream := none }
    return s
  else return s

/-- The part of `ioc_run_brick_send` without a stream. -/
def runFlat (call : BrickSendCall) (prevCmd : ℤ) (b : BrickBuffer) : BrickBuffer :=
  if !call.connected then { b with flatReadyForBrick := false, flatConnected := false }
  else if call.cmd ≠ 0 ∧ call.cmd ≠ prevCmd then
    { b with flatReadyForBrick := true, flatConnected := true }
  else if b.flatConnected && call.elapsed then { b with flatConnected := false }
  else b

/-- `ioc_run_brick_send`. -/
def runBrickSend (call : BrickSendCall) : LockProgram BrickBuffer BrickBufferStatus := do
  let b ← read
  change fun b => { b with prevCmd := call.cmd }
  if !b.flatBuffer then
    match b.stream, call.opened with
    | some _, _ => runStream call
    | none, opened =>
        if call.cmd ≠ iocStreamRunning ∨ call.cmd = b.prevCmd ∨ call.connected = false then
          return .nothingToDo
        else
          match opened with
          | none => return .nothingToDo
          | some stream =>
              let timeoutMs := if b.timeoutMs ≠ 0 then b.timeoutMs else stream.writeTimeoutMs
              change fun b => { b with bufN := 0, stream := some ⟨timeoutMs⟩ }
              runStream call
  else
    change fun b => { runFlat call b.prevCmd b with stateConnected := true }
    return .success

/-! ## What the functions leave locked -/

variable {b : BrickBuffer}

theorem freeBrickBuffer_balanced : freeBrickBuffer.Balanced := by
  intro b
  cases hflat : b.flatBuffer <;> cases hbuf : b.buf <;> simp [freeBrickBuffer, hflat, hbuf]

/-- `os_malloc` gives no memory where `ioc_allocate_brick_buffer` needs it. -/
def Starved (b : BrickBuffer) (bufSz : ℕ) (granted : Option ℕ) : Prop :=
  b.flatBuffer = false ∧ 24 < bufSz ∧ bufSz ≤ maxBrickAlloc ∧ b.bufSz ≠ bufSz ∧ granted = none

theorem allocateBrickBuffer_net (b : BrickBuffer) (bufSz : ℕ) (granted : Option ℕ) :
    ((allocateBrickBuffer bufSz granted).run b).net = 0 ↔ ¬ b.Starved bufSz granted := by
  have hfree := freeBrickBuffer_balanced { b with bufN := 0, pos := 0 }
  unfold allocateBrickBuffer Starved
  cases hflat : b.flatBuffer with
  | true => simp [hflat]
  | false =>
      by_cases hsize : bufSz ≤ 24 ∨ maxBrickAlloc < bufSz
      · have hillegal : ¬ (24 < bufSz ∧ bufSz ≤ maxBrickAlloc) := by omega
        simp only [run_bind, run_read, hflat, Bool.false_eq_true, if_false, if_pos hsize,
          run_pure]
        tauto
      · have hlegal : 24 < bufSz ∧ bufSz ≤ maxBrickAlloc := by omega
        by_cases hsame : b.bufSz = bufSz
        · simp [hflat, hsize, hsame]
        · rw [hflat] at hfree
          cases granted <;> simp [hflat, hsize, hsame, hfree, hlegal]

def Stuck (b : BrickBuffer) (write : StreamerStatus) : Prop := b.pos < b.bufN ∧ write ≠ .success

theorem sendBrickData_net (b : BrickBuffer) (write : StreamerStatus) (nWritten : ℕ) :
    ((sendBrickData write nWritten).run b).net = 0 ↔ ¬ b.Stuck write := by
  unfold sendBrickData Stuck
  by_cases hpos : b.pos < b.bufN
  · by_cases hwrite : write = .success <;> simp [hpos, hwrite]
  · simp [hpos]

theorem runStream_net (call : BrickSendCall) (b : BrickBuffer) :
    ((runStream call).run b).net = 0 ↔ ¬ b.Stuck call.write := by
  rw [← sendBrickData_net b call.write call.nWritten]
  by_cases hpos : b.pos < b.bufN
  · cases herror : ((sendBrickData call.write call.nWritten).run b).value.isError <;>
      simp [runStream, hpos, herror]
  · have hsend : ((sendBrickData call.write call.nWritten).run b).net = 0 := by
      rw [sendBrickData_net]
      exact fun hstuck => hpos hstuck.1
    have hidle : BrickBufferStatus.nothingToDo.isError = false := rfl
    rw [hsend]
    cases herror : call.write.toBrickBuffer.isError <;> simp [runStream, hpos, herror, hidle]

/-- Only an open stream leaves the lock taken: there is no brick to send when it is
opened. -/
theorem runBrickSend_net (call : BrickSendCall) (b : BrickBuffer) :
    ((runBrickSend call).run b).net = 0 ↔
      ¬ (b.flatBuffer = false ∧ b.stream ≠ none ∧ b.Stuck call.write) := by
  unfold runBrickSend
  cases hflat : b.flatBuffer with
  | true => simp [hflat]
  | false =>
      cases hstream : b.stream with
      | some stream =>
          have hrun := runStream_net call { b with prevCmd := call.cmd }
          rw [hflat, hstream] at hrun
          simp [hflat, hstream, hrun, Stuck]
      | none =>
          by_cases hidle : ¬ call.cmd = iocStreamRunning ∨ call.cmd = b.prevCmd ∨
              call.connected = false
          · simp [hflat, hstream, hidle]
          · have hrun (stream : BrickStream) := runStream_net call
              { b with prevCmd := call.cmd, bufN := 0, stream := some stream }
            simp only [hflat, Stuck, Nat.not_lt_zero, false_and, not_false_eq_true,
              iff_true] at hrun
            cases call.opened with
            | none => simp [hflat, hstream, hidle]
            | some stream => simp [hflat, hstream, hidle, hrun]

/-! ## Where the stream takes what it is given -/

def sender (b : BrickBuffer) : BrickParams.BrickSender where
  buf := b.buf.getD []
  bufN := b.bufN
  pos := b.pos

theorem allocateBrickBuffer_sender (prm : BrickParams) (hflat : b.flatBuffer = false)
    (hbuf : b.buf = none) (hsize : b.bufSz ≠ prm.bufSz) :
    ((allocateBrickBuffer prm.bufSz (some prm.bufSz)).run b).state.sender =
      prm.allocateBrickBuffer := by
  have hlegal : ¬ (prm.bufSz ≤ 24 ∨ maxBrickAlloc < prm.bufSz) := by
    have hgt := prm.bufSz_gt
    have hle := prm.bufSz_le
    omega
  simp [allocateBrickBuffer, freeBrickBuffer, hflat, hbuf, hsize, hlegal, sender,
    BrickParams.allocateBrickBuffer]

theorem sendBrickData_sender (accepted : ℕ) :
    ((sendBrickData .success (BrickParams.sendBrickData accepted b.sender).2.length).run
        b).state.sender = (BrickParams.sendBrickData accepted b.sender).1 := by
  by_cases hpos : b.pos < b.bufN
  · simp [sendBrickData, BrickParams.sendBrickData, sender, hpos]
  · simp [sendBrickData, BrickParams.sendBrickData, sender, hpos, Nat.le_of_not_lt hpos]

end BrickBuffer

/-! ## The functions and the runs of the queue -/

theorem lock_and_event_count_balanced (b : BrickBuffer) (bufSz : ℕ) (granted : Option ℕ)
    (write : StreamerStatus) (nWritten : ℕ) (call : BrickSendCall) (sizes : EventNameSizes)
    (queue : EventQueue) (args : QueuedEvent) (allocated : Bool) (maxNroEvents : ℤ)
    (flags : UInt32) (calls : List EventQueue.Call) :
    (((BrickBuffer.allocateBrickBuffer bufSz granted).run b).net = 0 ↔
        ¬ b.Starved bufSz granted) ∧
    (((BrickBuffer.sendBrickData write nWritten).run b).net = 0 ↔ ¬ b.Stuck write) ∧
    (((BrickBuffer.runBrickSend call).run b).net = 0 ↔
        ¬ (b.flatBuffer = false ∧ b.stream ≠ none ∧ b.Stuck call.write)) ∧
    (((EventQueue.queueEvent sizes args allocated).run queue).net = 0 ↔
        ¬ queue.Starved args.event allocated) ∧
    ∀ story : EventQueue.Story,
      (EventQueue.Story.start maxNroEvents flags).calls sizes calls = some story →
        (story.queue.eventCount = story.queue.events.length ↔
          (EventQueue.Story.start maxNroEvents flags).Supplied sizes calls) ∧
        (story.net = 0 ↔ (EventQueue.Story.start maxNroEvents flags).Supplied sizes calls) ∧
        (story.queue.eventCount ≤ story.queue.maxNroEvents ↔ 0 ≤ maxNroEvents) ∧
        story.queued = story.popped ++ story.queue.events ∧
        (EventQueue.getEvent.run (some story.queue)).value =
          (story.queued.drop story.popped.length).head? := by
  refine ⟨b.allocateBrickBuffer_net bufSz granted, b.sendBrickData_net write nWritten,
    BrickBuffer.runBrickSend_net call b, EventQueue.queueEvent_net args allocated, ?_⟩
  intro story hcalls
  obtain ⟨hstory, hmax, -, hlost⟩ := EventQueue.Story.calls_ordered
    (EventQueue.Story.start_ordered maxNroEvents flags) hcalls
  obtain ⟨hfifo, hnonneg, hnet, hcount⟩ := hstory
  have hstart : (EventQueue.Story.start maxNroEvents flags).queue.lost = 0 := rfl
  rw [hstart] at hlost
  rw [← hlost]
  refine ⟨?_, ?_, ?_, hfifo, ?_⟩
  · unfold EventQueue.lost
    omega
  · omega
  · have hbound : story.queue.maxNroEvents = if maxNroEvents ≠ 0 then maxNroEvents else 1000 :=
      hmax
    unfold EventQueue.lost at hnonneg
    split_ifs at hbound <;> omega
  · rw [EventQueue.getEvent_value, hfifo, List.drop_left]

/-- Memory runs out in `ioc_allocate_brick_buffer`, the streamer fails with half a brick
sent, and memory runs out for an event. -/
theorem lock_kept_and_event_lost :
    ((BrickBuffer.allocateBrickBuffer 100 none).run
      ⟨false, none, 0, 0, 0, none, 0, 0, false, false, false⟩).net = 1 ∧
    ((BrickBuffer.runBrickSend ⟨1, true, none, .failed, 0, false⟩).run
      ⟨false, some (List.replicate 100 0), 100, 60, 30, some ⟨1000⟩, 0, 1, false, false,
        false⟩).net = 1 ∧
    (EventQueue.Story.start 1 deviceEvents).calls ⟨16, 16⟩
        [.queueEvent ⟨.newDevice, [], ['m'], 1, []⟩ false,
          .queueEvent ⟨.newDevice, [], ['m'], 1, []⟩ true] =
      some ⟨⟨[], deviceEvents, 1, 1⟩, [], [], -1⟩ := by
  decide

end Iocom
