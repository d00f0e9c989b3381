import Iocom.ControlStreamPhases

/-!
# What a device receives over its control stream

A block is closed as one which has been written, and a program is finished, just
when the device has been told that the transfer is completed, and then it is what
the controller was given to write.
-/

namespace Iocom

variable {setup : StreamerSetup} {negative : ℕ → ℕ} {s : ControlReceive}

def ControlReceive.Opened (s : ControlReceive) : Prop := s.persistent ∨ s.program

structure ControlReceive.Keeps (s : ControlReceive) : Prop where
  completed : s.kept = true ↔ s.transfer.lastRead = .completed
  stored : s.kept = true → s.storeFailed = false → s.stored = s.content
  program : s.kept = true → s.program = true → s.storeFailed = false
  err : s.err = .completed → s.storeFailed = false

/-- What holds between the steps while no end has given up before all was written and
the stream of the device is not closed. -/
structure ControlReceive.Live (setup : StreamerSetup) (s : ControlReceive) : Prop where
  phase : ∃ told, s.transfer.GoesOn setup told ∧ (told.HasTold → s.content.length ≤ s.pos)
  going : s.transfer.lastRead = .success
  ownSteps : s.transfer.reader.step ≠ .initialized2 ∧ s.transfer.reader.step ≠ .transferDone2
  written : s.transfer.written = s.content.take s.pos
  closed : s.point = .closed → s.transfer.reader.step = .initialized ∧
    s.transfer.read = [] ∧ s.stored = [] ∧ s.storeFailed = false
  started : s.point ≠ .closed → 1 ≤ s.transfer.seenByReader
  unopened : s.point ≠ .closed → ¬s.Opened → s.transfer.reader.step = .initialized
  stored : s.storeFailed = false → s.stored = s.transfer.read
  program : s.program = true → s.storeFailed = false
  err : s.storeFailed = true → s.err.isError = true
  running : s.err ≠ .completed
  notKept : s.kept = false

structure ControlReceive.GivenUp (s : ControlReceive) : Prop where
  transfer : s.transfer.Aborted
  err : s.storeFailed = true → s.err.isError = true
  running : s.err ≠ .completed
  notKept : s.kept = false
  closed : s.point = .closed → s.storeFailed = false

def ControlReceive.Invariant (setup : StreamerSetup) (s : ControlReceive) : Prop :=
  s.Keeps ∧ (s.point = .done ∨ s.GivenUp ∨ s.Live setup)

namespace ControlReceive

theorem Live.invariant (h : s.Live setup) : s.Invariant setup :=
  ⟨{ completed := by simp [h.notKept, h.going]
     stored := by simp [h.notKept]
     program := by simp [h.notKept]
     err := fun herr => absurd herr h.running }, .inr (.inr h)⟩

theorem GivenUp.invariant (h : s.GivenUp) : s.Invariant setup :=
  ⟨{ completed := by simp [h.notKept, h.transfer.lastRead]
     stored := by simp [h.notKept]
     program := by simp [h.notKept]
     err := fun herr => absurd herr h.running }, .inr (.inl h)⟩

/-! ## Storing -/

theorem close_point (status : StreamerStatus) : (s.close status).point = .done := by
  unfold ControlReceive.close
  dsimp only
  split_ifs <;> rfl

theorem err_of_completed {err : StreamerError} {failed : Bool}
    (h : failed = true → err.isError = true)
    (hcompleted : setStreamerError err .completed .completed = .completed) : failed = false := by
  cases failed with
  | false => rfl
  | true =>
      have herr := h rfl
      cases err <;> simp [setStreamerError, StreamerError.isError] at herr hcompleted

theorem close_broken {status : StreamerStatus} (hstatus : status ≠ .completed)
    (hlast : s.transfer.lastRead ≠ .completed) (hkept : s.kept = false)
    (herr : s.storeFailed = true → s.err.isError = true) (hrunning : s.err ≠ .completed) :
    (s.close status).Invariant setup := by
  refine ⟨?_, .inl (close_point status)⟩
  unfold ControlReceive.close
  dsimp only
  split_ifs with hprogram hpersistent
  · exact ⟨by simp [hstatus, hlast], by simp [hstatus], by simp [hstatus],
      fun hcompleted => absurd hcompleted hrunning⟩
  · exact ⟨by simp [hstatus, hlast], by simp [hstatus], by simp [hstatus],
      err_of_completed herr⟩
  · exact ⟨by simp [hkept, hlast], by simp [hkept], by simp [hkept],
      fun hcompleted => absurd hcompleted hrunning⟩

theorem GivenUp.close (h : s.GivenUp) {status : StreamerStatus} (hstatus : status ≠ .completed) :
    (s.close status).Invariant setup :=
  close_broken hstatus h.transfer.lastRead h.notKept h.err h.running

theorem GivenUp.goOn (h : s.GivenUp) {status : StreamerStatus} (hstatus : status ≠ .completed) :
    (s.goOn status).Invariant setup := by
  unfold ControlReceive.goOn
  split_ifs
  · exact h.invariant
  · exact h.close hstatus

theorem GivenUp.fails (h : s.GivenUp) (hpoint : s.point ≠ .closed) {err : StreamerError}
    (herr : err.isError = true) :
    { s with
      storeFailed := true
      err := setStreamerError s.err err .unconditional }.GivenUp := by
  have hset : setStreamerError s.err err .unconditional = err := by simp [setStreamerError]
  refine ⟨h.transfer, fun _ => hset ▸ herr, ?_, h.notKept,
    fun hclosed => absurd hclosed hpoint⟩
  dsimp only
  rw [hset]
  rintro rfl
  cases herr

theorem GivenUp.stores (h : s.GivenUp) (bytes : List UInt8) :
    { s with stored := s.stored ++ bytes }.GivenUp :=
  ⟨h.transfer, h.err, h.running, h.notKept, h.closed⟩

theorem GivenUp.store (h : s.GivenUp) (hpoint : s.point ≠ .closed) {status : StreamerStatus}
    (hstatus : status ≠ .completed) (bytes : List UInt8) (storeFails : Bool) :
    (s.store bytes storeFails status).Invariant setup := by
  unfold ControlReceive.store
  split_ifs
  · exact (h.fails hpoint rfl).close (by decide)
  · exact (h.stores bytes).goOn hstatus
  · exact (h.fails hpoint rfl).goOn hstatus
  · exact (h.stores bytes).goOn hstatus
  · exact h.goOn hstatus

/-! ## Steps of the device -/

theorem Live.openStream (h : s.Live setup) (hpoint : s.point = .closed) {k : ℕ}
    {first : WriterSignals} (hseen : s.transfer.seenByReader ≤ k)
    (hcmd : s.transfer.writer.published[k]? = some first) (hrunning : first.signal = .running)
    (opens : Bool) : (s.openStream k opens).Live setup := by
  obtain ⟨hstep, hread, hstored, hfailed⟩ := h.closed hpoint
  obtain ⟨told, hgoesOn, htold⟩ := h.phase
  obtain ⟨hnext, hk⟩ := hgoesOn.seeWriter hstep hseen hcmd hrunning
  have hlive : ∀ persistent err point, err ≠ StreamerError.completed →
      Live setup { s with
        transfer := { s.transfer with seenByReader := k }
        persistent := persistent
        err := err
        point := point } := by
    intro persistent err point herr
    constructor
    case phase => exact ⟨told, hnext, htold⟩
    case going => exact h.going
    case ownSteps => exact h.ownSteps
    case written => exact h.written
    case closed => exact fun _ => ⟨hstep, hread, hstored, hfailed⟩
    case started => exact fun _ => hk
    case unopened => exact fun _ _ => hstep
    case stored => exact h.stored
    case program => exact h.program
    case err => simp [hfailed]
    case running => exact herr
    case notKept => exact h.notKept
  unfold ControlReceive.openStream
  dsimp only
  split_ifs
  · exact hlive s.persistent .success .between (by simp)
  · exact hlive s.persistent _ s.point (by simp [setStreamerError, StreamerError.isError])
  · exact hlive opens .success .between (by simp)
  · exact hlive opens _ .between (by simp [setStreamerError, StreamerError.isError])

theorem Live.begin (h : s.Live setup) (hpoint : s.point = .between) :
    Live setup { s with point := .reading } := by
  have hopen : s.point ≠ .closed := by simp [hpoint]
  exact
    { h with
      closed := by simp
      started := fun _ => h.started hopen
      unopened := fun _ => h.unopened hopen }

theorem Live.afterRead (h : s.Live setup) (hopened : s.Opened) {after : Transfer}
    (hphase : ∃ told, after.GoesOn setup told ∧ (told.HasTold → s.content.length ≤ s.pos))
    (hown : after.reader.step ≠ .initialized2 ∧ after.reader.step ≠ .transferDone2)
    (hgoing : after.lastRead = .success) (hwritten : after.written = s.transfer.written)
    (hseen : 1 ≤ after.seenByReader) {stored : List UInt8} {storeFailed : Bool} {err : StreamerError}
    {point : ControlReceivePoint} (hpoint : point ≠ .closed)
    (hstored : storeFailed = false → stored = after.read)
    (hprogram : s.program = true → storeFailed = false)
    (herr : storeFailed = true → err.isError = true) (hrunning : err ≠ .completed) :
    Live setup { s with
      transfer := after
      stored := stored
      storeFailed := storeFailed
      err := err
      point := point } := by
  constructor
  case phase => exact hphase
  case going => exact hgoing
  case ownSteps => exact hown
  case written => exact hwritten.trans h.written
  case closed => exact fun hclosed => absurd hclosed hpoint
  case started => exact fun _ => hseen
  case unopened => exact fun _ hnot => absurd hopened hnot
  case stored => exact hstored
  case program => exact hprogram
  case err => exact herr
  case running => exact hrunning
  case notKept => exact h.notKept

theorem err_after {err : StreamerError} (status : StreamerStatus) (hrunning : err ≠ .completed) :
    let err' := if status = .checksumError then setStreamerError err .checksumError .setError
      else err
    (err.isError = true → err'.isError = true) ∧ err' ≠ .completed := by
  dsimp only
  split_ifs
  · simp [setStreamerError, StreamerError.isError]
  · exact ⟨id, hrunning⟩

theorem Live.store (h : s.Live setup) (hopened : s.Opened) {after : Transfer}
    (hphase : ∃ told, after.GoesOn setup told ∧ (told.HasTold → s.content.length ≤ s.pos))
    (hown : after.reader.step ≠ .initialized2 ∧ after.reader.step ≠ .transferDone2)
    (hgoing : after.lastRead = .success) (hwritten : after.written = s.transfer.written)
    (hseen : 1 ≤ after.seenByReader) (hpoint : s.point ≠ .closed) {bytes : List UInt8}
    (hread : after.read = s.transfer.read ++ bytes) (storeFails : Bool) :
    Invariant setup (store { s with transfer := after } bytes storeFails .success) := by
  have hstored : s.storeFailed = false → s.stored ++ bytes = after.read := by
    intro hfailed
    rw [hread, h.stored hfailed]
  have hlive : ∀ stored storeFailed err, (storeFailed = false → stored = after.read) →
      (s.program = true → storeFailed = false) → (storeFailed = true → err.isError = true) →
      err ≠ .completed →
      Live setup { s with
        transfer := after
        stored := stored
        storeFailed := storeFailed
        err := err } :=
    fun stored storeFailed err =>
      h.afterRead hopened hphase hown hgoing hwritten hseen hpoint
  unfold ControlReceive.store ControlReceive.goOn
  dsimp only
  simp only [if_true]
  split_ifs with hprogram hfails hpersistent hfails
  · exact close_broken (by decide) (by simp [hgoing]) h.notKept
      (by simp [setStreamerError, StreamerError.isError]) (by simp [setStreamerError])
  · exact (hlive _ s.storeFailed s.err hstored h.program h.err h.running).invariant
  · exact (hlive _ true (setStreamerError s.err .writingFileFailed .unconditional) (by simp)
      (fun hcase => absurd hcase hprogram) (by simp [setStreamerError, StreamerError.isError])
      (by simp [setStreamerError])).invariant
  · exact (hlive _ s.storeFailed s.err hstored h.program h.err h.running).invariant
  · exact absurd hopened (by simp [Opened, hprogram, hpersistent])

/-- The transfer is completed, and the block is closed or the program finished. -/
theorem Live.complete (h : s.Live setup) (hopened : s.Opened) {after : Transfer}
    (hlast : after.lastRead = .completed) (htold : s.content.length ≤ s.pos)
    (hdrained : after.read = after.written) (hwritten : after.written = s.transfer.written)
    (hread : after.read = s.transfer.read) :
    Invariant setup (close { s with transfer := after } .completed) := by
  have hcontent : s.storeFailed = false → s.stored = s.content := by
    intro hfailed
    rw [h.stored hfailed, ← hread, hdrained, hwritten, h.written,
      List.take_of_length_le htold]
  refine ⟨?_, .inl (close_point _)⟩
  unfold ControlReceive.close
  dsimp only
  split_ifs with hprogram hpersistent
  · exact ⟨by simp [hlast], fun _ => hcontent, fun _ => h.program,
      fun herr => absurd herr h.running⟩
  · exact ⟨by simp [hlast], fun _ => hcontent, fun _ => h.program, err_of_completed h.err⟩
  · exact absurd hopened (by simp [Opened, hprogram, hpersistent])

theorem GivenUp.afterRead (h : s.GivenUp) (hpoint : s.point ≠ .closed) (input : Round)
    {result : ReadOutcome × StreamerStatus} (hstatus : result.2 ≠ .completed) :
    (s.afterRead input result).Invariant setup := by
  unfold ControlReceive.afterRead
  split_ifs
  · exact GivenUp.invariant ⟨h.transfer, h.err, h.running, h.notKept, by simp⟩
  · exact h.close hstatus
  · exact h.store hpoint hstatus input.negativeTaken input.storeFails
  · exact h.store hpoint hstatus result.1.moved input.storeFails

/-- A reading call of the device: an end gives up, and that happens when there is nothing
to store in, or the device reads on. -/
theorem Live.deviceReads (h : s.Live setup) (hsz : setup.bufSz ≤ 0x80000000)
    (hopen : s.point ≠ .closed) {k k₁ k₂ : ℕ} {first second third : WriterSignals} {view : Mem}
    (hseen : s.transfer.seenByReader ≤ k) (horder : k ≤ k₁) (horder' : k₁ ≤ k₂)
    (hfirst : s.transfer.writer.published[k]? = some first)
    (hsecond : s.transfer.writer.published[k₁]? = some second)
    (hview : s.transfer.Views setup k₁ view)
    (hthird : s.transfer.writer.published[k₂]? = some third) {call : StreamerCall}
    (hcall : call.interrupt = !(s.persistent || s.program)) :
    let result := setup.deviceRead s.transfer.reader call
      ⟨first.signal, second.head, view, (true, true)⟩ setup.chunkSz
    let after := s.transfer.afterRead k₂
      (setup.checkRead result (deviceStatus result.reader.step) third.cs)
    after.Aborted ∨ s.Opened ∧
      (∃ told, after.GoesOn setup told ∧ (told.HasTold → s.content.length ≤ s.pos)) ∧
      after.reader.step ≠ .initialized2 ∧ after.reader.step ≠ .transferDone2 := by
  dsimp only
  by_cases hopened : s.Opened
  · obtain ⟨told, hgoesOn, htold⟩ := h.phase
    have hreads := hgoesOn.deviceReads hsz hseen horder horder' hfirst hsecond hthird hview
      h.ownSteps ((h.started hopen).trans hseen) call
    rcases hreads with ⟨hnext, hown⟩ | haborted
    · exact .inr ⟨hopened, ⟨told, hnext, htold⟩, hown⟩
    · exact .inl haborted
  · have hinterrupt : call.interrupt = true := by
      simpa [hcall, Opened] using hopened
    have hgivesUp := setup.deviceRead_interrupts (h.unopened hopen hopened) hinterrupt
      ⟨first.signal, second.head, view, (true, true)⟩ setup.chunkSz
    exact .inl (Transfer.readerGivesUp hgivesUp (deviceStatus_gaveUp (.inl hgivesUp.1)))

theorem Live.givesUp (h : s.Live setup) (hopen : s.point ≠ .closed) {k : ℕ} (input : Round)
    {result : ReadOutcome × StreamerStatus}
    (haborted : (s.transfer.afterCounted k result).Aborted) :
    Invariant setup (ControlReceive.afterRead { s with
      transfer := s.transfer.afterCounted k result
      err := if result.2 = StreamerStatus.checksumError then
          setStreamerError s.err .checksumError .setError
        else s.err } input result) := by
  obtain ⟨herr, hrunning⟩ := err_after result.2 h.running
  have hgivenUp : GivenUp { s with
      transfer := s.transfer.afterCounted k result
      err := if result.2 = StreamerStatus.checksumError then
          setStreamerError s.err .checksumError .setError
        else s.err } :=
    ⟨haborted, fun hfailed => herr (h.err hfailed), hrunning, h.notKept,
      fun hclosed => absurd hclosed hopen⟩
  exact hgivenUp.afterRead hopen input haborted.lastRead

theorem Live.readsOn (h : s.Live setup) (hopen : s.point ≠ .closed) (hopened : s.Opened)
    {k : ℕ} (input : Round) {read : ReaderResult} {cs : ℕ}
    {result : ReadOutcome × StreamerStatus} (hcount : result.1.nRead = result.1.moved.length)
    (hresult : (result.1.reader, result.1.moved, result.2) =
      setup.checkRead read (deviceStatus read.reader.step) cs)
    (hnothing : read.reader.step = .allCompleted → read.moved = [])
    (hseen : 1 ≤ k)
    (hphase : ∃ told, (s.transfer.afterCounted k result).GoesOn setup told ∧
      (told.HasTold → s.content.length ≤ s.pos))
    (hown : (s.transfer.afterCounted k result).reader.step ≠ .initialized2 ∧
      (s.transfer.afterCounted k result).reader.step ≠ .transferDone2) :
    Invariant setup (ControlReceive.afterRead { s with
      transfer := s.transfer.afterCounted k result
      err := if result.2 = StreamerStatus.checksumError then
          setStreamerError s.err .checksumError .setError
        else s.err } input result) := by
  have hread : (s.transfer.afterCounted k result).read =
      s.transfer.read ++ result.1.moved := by
    rw [Transfer.afterCounted_eq hcount]
    rfl
  obtain ⟨told, hgoesOn, htold⟩ := hphase
  have hlast : result.2 = .success ∨ result.2 = .completed ∧ told.HasTold ∧
      (s.transfer.afterCounted k result).read = (s.transfer.afterCounted k result).written :=
    hgoesOn.lastRead
  have hok : result.2 ≠ .checksumError := by
    rcases hlast with hlast | ⟨hlast, -⟩ <;> simp [hlast]
  rw [if_neg hok]
  unfold ControlReceive.afterRead
  by_cases hzero : result.1.nRead = 0
  · have hmoved : result.1.moved = [] := List.eq_nil_of_length_eq_zero (by omega)
    rw [hmoved, List.append_nil] at hread
    rw [if_pos hzero]
    rcases hlast with hsuccess | ⟨hcompleted, hall, hdrained⟩
    · rw [if_pos hsuccess]
      refine (h.afterRead hopened ⟨told, hgoesOn, htold⟩ hown hsuccess rfl hseen (by simp)
        (fun hfailed => ?_) h.program h.err h.running).invariant
      exact (h.stored hfailed).trans hread.symm
    · rw [hcompleted, if_neg (by decide)]
      exact h.complete hopened hcompleted (htold hall) hdrained rfl hread
  · rw [if_neg hzero, if_neg (by omega)]
    have hsuccess : result.2 = .success := by
      refine hlast.resolve_right fun hcompleted => hzero ?_
      have hstep : read.reader.step = .allCompleted := by
        have hstatus : deviceStatus read.reader.step = .completed := by
          by_contra hne
          have hchecked := @StreamerSetup.checkRead_ne_completed setup read _ hne cs
          rw [← hresult] at hchecked
          exact hchecked hcompleted.1
        revert hstatus
        cases read.reader.step <;> simp [deviceStatus]
      obtain ⟨-, -, hsame, -⟩ := @StreamerSetup.checkRead_reader setup read
        (deviceStatus read.reader.step) cs
      have hmoved : result.1.moved = (setup.checkRead read (deviceStatus read.reader.step)
          cs).2.1 := congrArg (fun result => result.2.1) hresult
      rw [hcount, hmoved, hsame, hnothing hstep]
      rfl
    rw [hsuccess]
    exact h.store hopened ⟨told, hgoesOn, htold⟩ hown hsuccess rfl hseen hopen hread
      input.storeFails

theorem Live.round (h : s.Live setup) (hsz : setup.bufSz ≤ 0x80000000)
    (hpoint : s.point = .reading) {k k₁ k₂ : ℕ} {first second third : WriterSignals}
    {view : Mem} (hseen : s.transfer.seenByReader ≤ k) (horder : k ≤ k₁) (horder' : k₁ ≤ k₂)
    (hfirst : s.transfer.writer.published[k]? = some first)
    (hsecond : s.transfer.writer.published[k₁]? = some second)
    (hview : s.transfer.Views setup k₁ view)
    (hthird : s.transfer.writer.published[k₂]? = some third) (input : Round) :
    (s.round setup negative input k₂ ⟨first.signal, second.head, view, input.bufferConnected⟩
      third.cs).Invariant setup := by
  have hopen : s.point ≠ .closed := by simp [hpoint]
  have hstarted := h.started hopen
  unfold ControlReceive.round
  dsimp only
  generalize hcall :
    ({ input.call with interrupt := !(s.persistent || s.program) } : StreamerCall) = call
  have hinterrupt : call.interrupt = !(s.persistent || s.program) := by rw [← hcall]
  have hphase := h.deviceReads hsz hopen hseen horder horder' hfirst hsecond hview hthird
    hinterrupt
  have hcounted := setup.readCounted_device negative s.transfer.reader call
    ⟨first.signal, second.head, view, input.bufferConnected⟩ third.cs
  dsimp only at hphase hcounted
  generalize hread : setup.deviceRead s.transfer.reader call
    ⟨first.signal, second.head, view, (true, true)⟩ setup.chunkSz = read at hphase hcounted
  generalize setup.readCounted negative .toDevice s.transfer.reader _ = result at hcounted ⊢
  rcases hcounted with ⟨hcount, hsame⟩ | ⟨-, hstep, hstatus⟩
  · rw [← hsame, ← Transfer.afterCounted_eq hcount] at hphase
    rcases hphase with haborted | ⟨hopened, hnext, hown⟩
    · exact h.givesUp hopen input haborted
    · refine h.readsOn hopen hopened input hcount hsame (fun hstep => ?_) (by omega) hnext hown
      rw [← hread] at hstep ⊢
      exact StreamerSetup.deviceRead_completed hstep
  · exact h.givesUp hopen input (Transfer.losesBuffer hstep hstatus)

/-! ## Calls of the controller -/

/-- The controller writes on, waits for the device or gives up. -/
theorem Live.runStream (h : s.Live setup) {k k₁ : ℕ} {first second : ReaderSignals}
    (call : StreamerCall) (hseen : s.transfer.seenByWriter ≤ k) (horder : k ≤ k₁)
    (hfirst : s.transfer.reader.published[k]? = some first)
    (hsecond : s.transfer.reader.published[k₁]? = some second) :
    (s.runStream setup call k₁ first.signal second.tail).Live setup ∨
      (s.runStream setup call k₁ first.signal second.tail).GivenUp := by
  unfold ControlReceive.runStream
  dsimp only
  generalize hdata : (if s.pos < s.content.length then some (s.content.drop s.pos) else none) =
    data
  generalize hcall : ({ call with interrupt := false } : StreamerCall) = input
  generalize hresult : setup.controllerWrite s.transfer.writer input first.signal second.tail
    data = result
  have hbegins : result.moved <+: data.getD [] → result.moved <+: s.content.drop s.pos := by
    intro hmoved
    rw [← hdata] at hmoved
    split_ifs at hmoved with hmore
    · exact hmoved
    · rw [List.eq_nil_of_prefix_nil hmoved]
      exact List.nil_prefix
  have hcases : (s.transfer.afterWrite k₁ result).Aborted ∨
      (∃ told, (s.transfer.afterWrite k₁ result).GoesOn setup told ∧
        (told.HasTold → s.content.length ≤ s.pos + result.moved.length)) ∧
        result.moved <+: data.getD [] := by
    obtain ⟨told, hgoesOn, htold⟩ := h.phase
    by_cases hhasTold : told.HasTold
    · obtain ⟨hmoved, hnext⟩ := hgoesOn.controllerWaits hhasTold (hseen.trans horder) hsecond
        input first.signal data
      rw [hresult] at hmoved hnext
      exact .inr ⟨⟨told, hnext, fun hall => (htold hall).trans (Nat.le_add_right _ _)⟩,
        hmoved ▸ List.nil_prefix⟩
    · have hwrites := hgoesOn.controllerWrites hhasTold hseen horder hfirst hsecond input data
      dsimp only at hwrites
      rw [hresult] at hwrites
      refine hwrites.imp_right fun ⟨hnext, hmoved, hend⟩ =>
        ⟨⟨result.writer, hnext, fun hall => ?_⟩, hmoved⟩
      have hnone := hend hall
      rw [← hdata] at hnone
      split_ifs at hnone with hmore
      omega
  rcases hcases with haborted | ⟨hphase, hmoved⟩
  · exact .inr ⟨haborted, h.err, h.running, h.notKept, fun hclosed => (h.closed hclosed).2.2.2⟩
  · left
    have hwritten : s.transfer.written ++ result.moved =
        s.content.take (s.pos + result.moved.length) := by
      rw [h.written, List.take_add, ← List.prefix_iff_eq_take.mp (hbegins hmoved)]
    exact
      { phase := hphase
        going := h.going
        ownSteps := h.ownSteps
        written := hwritten
        closed := h.closed
        started := h.started
        unopened := h.unopened
        stored := h.stored
        program := h.program
        err := h.err
        running := h.running
        notKept := h.notKept }

theorem GivenUp.runStream (h : s.GivenUp) (call : StreamerCall) (k : ℕ) (state : StreamerState)
    (tail : ℤ) : (s.runStream setup call k state tail).GivenUp :=
  ⟨h.transfer.afterWrite StreamerSetup.controllerWrite_gaveUp, h.err, h.running, h.notKept,
    h.closed⟩

/-! ## Runs -/

theorem Invariant.start (h : ControlReceiveStart setup s) : s.Invariant setup := by
  obtain ⟨htransfer, hpos, -, hstored, hfailed, hkept, herr, hpoint⟩ := h
  have hvalid : s.transfer.Valid setup .toDevice := Transfer.Valid.start htransfer
  have hactive : s.transfer.Active setup := by
    refine hvalid.1.resolve_right fun hdrained => ?_
    obtain ⟨buffer, hstart⟩ := htransfer
    rcases hdrained.writerStep with hcase | hcase <;> simp [hstart] at hcase
  obtain ⟨buffer, hstart⟩ := htransfer
  refine Live.invariant ?_
  exact
    { phase := ⟨_, hactive.goesOn, by simp [hstart, WriterEnd.HasTold]⟩
      going := by rw [hstart]
      ownSteps := hvalid.2 rfl
      written := by simp [hstart, hpos]
      closed := by simp [hstart, hstored, hfailed]
      started := fun hopen => absurd hpoint hopen
      unopened := fun hopen => absurd hpoint hopen
      stored := by simp [hstart, hstored]
      program := by simp [hfailed]
      err := by simp [hfailed]
      running := by simp [herr]
      notKept := hkept }

theorem Invariant.step {next : ControlReceive} (h : s.Invariant setup)
    (hsz : setup.bufSz ≤ 0x80000000) (hstep : ControlReceiveStep setup negative s next) :
    next.Invariant setup := by
  obtain ⟨hkeeps, hdone | hgivenUp | hlive⟩ := h
  · cases hstep with
    | openStream k cmd opens hpoint => simp [hdone] at hpoint
    | begin hpoint => simp [hdone] at hpoint
    | round input view k k₁ k₂ first second third hpoint => simp [hdone] at hpoint
    | runStream call k k₁ first second =>
        exact ⟨⟨hkeeps.completed, hkeeps.stored, hkeeps.program, hkeeps.err⟩, .inl hdone⟩
  · cases hstep with
    | openStream k cmd opens hpoint =>
        have hfailed := hgivenUp.closed hpoint
        have hnext : ∀ persistent err point, err ≠ StreamerError.completed →
            GivenUp { s with
              transfer := { s.transfer with seenByReader := k }
              persistent := persistent
              err := err
              point := point } :=
          fun persistent err point herr => ⟨hgivenUp.transfer.seeWriter, by simp [hfailed], herr,
            hgivenUp.notKept, fun _ => hfailed⟩
        refine GivenUp.invariant ?_
        unfold ControlReceive.openStream
        dsimp only
        split_ifs
        · exact hnext s.persistent .success .between (by simp)
        · exact hnext s.persistent _ s.point (by simp [setStreamerError, StreamerError.isError])
        · exact hnext opens .success .between (by simp)
        · exact hnext opens _ .between (by simp [setStreamerError, StreamerError.isError])
    | begin hpoint =>
        exact GivenUp.invariant ⟨hgivenUp.transfer, hgivenUp.err, hgivenUp.running,
          hgivenUp.notKept, by simp⟩
    | round input view k k₁ k₂ first second third hpoint hseen horder horder' hfirst =>
        have hopen : s.point ≠ .closed := by simp [hpoint]
        unfold ControlReceive.round
        dsimp only
        generalize ({ input.call with interrupt := !(s.persistent || s.program) } :
          StreamerCall) = call
        have hcounted := setup.readCounted_device negative s.transfer.reader call
          ⟨first.signal, second.head, view, input.bufferConnected⟩ third.cs
        generalize setup.readCounted negative .toDevice s.transfer.reader _ = result at hcounted ⊢
        obtain ⟨herr, hrunning⟩ := err_after result.2 hgivenUp.running
        have haborted : (s.transfer.afterCounted k₂ result).Aborted := by
          rcases hcounted.afterCounted s.transfer k₂ with hsame | haborted
          · rw [hsame]
            exact hgivenUp.transfer.deviceRead hfirst setup call
              ⟨first.signal, second.head, view, (true, true)⟩ rfl setup.chunkSz k₂ third.cs
          · exact haborted
        have hnext : GivenUp { s with
            transfer := s.transfer.afterCounted k₂ result
            err := if result.2 = StreamerStatus.checksumError then
                setStreamerError s.err .checksumError .setError
              else s.err } :=
          ⟨haborted, fun hfailed => herr (hgivenUp.err hfailed), hrunning, hgivenUp.notKept,
            fun hclosed => absurd hclosed hopen⟩
        exact hnext.afterRead hopen input haborted.lastRead
    | runStream call k k₁ first second =>
        exact (hgivenUp.runStream call k₁ first.signal second.tail).invariant
  · cases hstep with
    | openStream k cmd opens hpoint hseen hcmd hrunning =>
        exact (hlive.openStream hpoint hseen hcmd hrunning opens).invariant
    | begin hpoint => exact (hlive.begin hpoint).invariant
    | round input view k k₁ k₂ first second third hpoint hseen horder horder' hfirst hsecond
        hview hthird =>
        exact hlive.round hsz hpoint hseen horder horder' hfirst hsecond hview hthird input
    | runStream call k k₁ first second hseen horder hfirst hsecond =>
        rcases hlive.runStream call hseen horder hfirst hsecond with hnext | hnext
        · exact hnext.invariant
        · exact hnext.invariant

end ControlReceive

/-- In every run in which either end may time out, lose its connection or its ring buffer,
or fail to store, a block is closed as written and a program finished just when the
device has been told that the transfer is completed, and then they are what the
controller was given to write unless some of it was not taken. -/
theorem control_stream_to_device (setup : StreamerSetup) (negative : ℕ → ℕ)
    (hsz : setup.bufSz ≤ 0x80000000) (s : ControlReceive)
    (hreachable : TransitionSystem.Reachable (ControlReceiveStart setup)
      (ControlReceiveStep setup negative) s) : s.Keeps := by
  have hinvariant : s.Invariant setup :=
    TransitionSystem.Reachable.invariant (ControlReceive.Invariant setup)
      (fun _ hstart => ControlReceive.Invariant.start hstart)
      (fun _ _ hs hstep => hs.step hsz hstep) hreachable
  exact hinvariant.1

/-! ## Runs with chosen versions -/

inductive ControlReceiveChoice where
  | openStream (k : ℕ)
  | begin
  | round (input : ControlReceive.Round) (k : ℕ)
  | runStream (call : StreamerCall) (k : ℕ)

/-- A step with the version which was chosen. -/
def ControlReceive.play (setup : StreamerSetup) (negative : ℕ → ℕ) (s : ControlReceive) :
    ControlReceiveChoice → Option ControlReceive
  | .openStream k => do
      let cmd ← s.transfer.writer.published[k]?
      if s.point = .closed ∧ s.transfer.seenByReader ≤ k ∧ cmd.signal = .running then
        some (s.openStream k true)
      else none
  | .begin => if s.point = .between then some { s with point := .reading } else none
  | .round input k => do
      let signals ← s.transfer.writer.published[k]?
      if s.point = .reading ∧ s.transfer.seenByReader ≤ k then
        some (s.round setup negative input k
          ⟨signals.signal, signals.head, signals.buffer, input.bufferConnected⟩ signals.cs)
      else none
  | .runStream call k => do
      let signals ← s.transfer.reader.published[k]?
      if s.transfer.seenByWriter ≤ k then
        some (s.runStream setup call k signals.signal signals.tail)
      else none

theorem ControlReceive.play_step {choice : ControlReceiveChoice} {next : ControlReceive}
    (h : s.play setup negative choice = some next) :
    ControlReceiveStep setup negative s next := by
  cases choice with
  | openStream k =>
      simp only [ControlReceive.play, Option.bind_eq_bind, Option.bind_eq_some_iff] at h
      obtain ⟨cmd, hcmd, h⟩ := h
      split_ifs at h with hall
      obtain rfl := Option.some.inj h
      exact .openStream s k cmd true hall.1 hall.2.1 hcmd hall.2.2
  | begin =>
      simp only [ControlReceive.play] at h
      split_ifs at h with hpoint
      obtain rfl := Option.some.inj h
      exact .begin s hpoint
  | round input k =>
      simp only [ControlReceive.play, Option.bind_eq_bind, Option.bind_eq_some_iff] at h
      obtain ⟨signals, hsignals, h⟩ := h
      split_ifs at h with hall
      obtain rfl := Option.some.inj h
      exact .round s input signals.buffer k k k signals signals signals hall.1 hall.2
        (le_refl k) (le_refl k) hsignals hsignals
        (fun _ _ => ⟨k, signals, le_refl k, hsignals, rfl⟩) hsignals
  | runStream call k =>
      simp only [ControlReceive.play, Option.bind_eq_bind, Option.bind_eq_some_iff] at h
      obtain ⟨signals, hsignals, h⟩ := h
      split_ifs at h with hseen
      obtain rfl := Option.some.inj h
      exact .runStream s call k k signals signals hseen (le_refl k) hsignals hsignals

def fiveByteUpload : ControlReceive :=
  ⟨openedTransfer, [1, 2, 3, 4, 5], 0, false, false, [], false, false, .success, .closed⟩

theorem fiveByteUpload_start : ControlReceiveStart fourByteSetup fiveByteUpload :=
  ⟨⟨fun _ => 0, rfl⟩, rfl, rfl, rfl, rfl, rfl, rfl, rfl⟩

def storingRound (storeFails : Bool) : ControlReceive.Round :=
  ⟨undisturbedCall, (true, true), storeFails, []⟩

/-- The controller writes while the device reads, and loses its connection before the
device has read all; `storeFails` is of the first three bytes. -/
def storeFiveBytes (storeFails : Bool) : List ControlReceiveChoice :=
  [.runStream undisturbedCall 0, .openStream 1, .begin, .round (storingRound false) 1,
    .runStream undisturbedCall 1, .begin, .round (storingRound storeFails) 2,
    .runStream undisturbedCall 2, .runStream undisturbedCall 2,
    .runStream ⟨true, false, false⟩ 2, .round (storingRound false) 5,
    .round (storingRound false) 6]

def loseRingBuffer : List ControlReceiveChoice :=
  [.runStream undisturbedCall 0, .openStream 1, .begin, .round (storingRound false) 1,
    .runStream undisturbedCall 1, .begin,
    .round ⟨undisturbedCall, (false, false), false, [0]⟩ 2, .round (storingRound false) 2]

theorem control_stream_to_device_fiveBytes :
    ∃ s : ControlReceive, s.Keeps ∧ s.kept = true ∧ s.stored = [1, 2, 3, 4, 5] ∧
      s.err = .completed ∧ s.transfer.writer.step = .failedAndIdleSet := by
  obtain ⟨s, hs, hfacts⟩ : ∃ s,
      (storeFiveBytes false).foldlM (ControlReceive.play fourByteSetup id) fiveByteUpload =
          some s ∧
        s.kept = true ∧ s.stored = [1, 2, 3, 4, 5] ∧ s.err = .completed ∧
        s.transfer.writer.step = .failedAndIdleSet :=
    ⟨_, rfl, rfl, rfl, rfl, rfl⟩
  exact ⟨s, control_stream_to_device fourByteSetup id (by decide) s
    (.play (fun _ _ _ => ControlReceive.play_step) (.start fiveByteUpload_start) hs), hfacts⟩

/-- A block which could not take some of the bytes is closed as one which has been
written all the same; the device tells of the failure. -/
theorem control_stream_gap :
    ∃ s : ControlReceive,
      TransitionSystem.Reachable (ControlReceiveStart fourByteSetup)
          (ControlReceiveStep fourByteSetup id) s ∧
        s.kept = true ∧ s.content = [1, 2, 3, 4, 5] ∧ s.stored = [4, 5] ∧
        s.err = .writingFileFailed := by
  obtain ⟨s, hs, hfacts⟩ : ∃ s,
      (storeFiveBytes true).foldlM (ControlReceive.play fourByteSetup id) fiveByteUpload =
          some s ∧
        s.kept = true ∧ s.content = [1, 2, 3, 4, 5] ∧ s.stored = [4, 5] ∧
        s.err = .writingFileFailed :=
    ⟨_, rfl, rfl, rfl, rfl, rfl⟩
  exact ⟨s, .play (fun _ _ _ => ControlReceive.play_step) (.start fiveByteUpload_start) hs,
    hfacts⟩

/-- A count of -1 is given to the block like any other; it is not closed as one which has
been written then. -/
theorem control_stream_lost :
    ∃ s : ControlReceive,
      TransitionSystem.Reachable (ControlReceiveStart fourByteSetup)
          (ControlReceiveStep fourByteSetup id) s ∧
        s.stored = [0] ∧ s.kept = false ∧ s.transfer.reader.step = .failed2 := by
  obtain ⟨s, hs, hfacts⟩ : ∃ s,
      loseRingBuffer.foldlM (ControlReceive.play fourByteSetup id) fiveByteUpload = some s ∧
        s.stored = [0] ∧ s.kept = false ∧ s.transfer.reader.step = .failed2 :=
    ⟨_, rfl, rfl, rfl, rfl⟩
  exact ⟨s, .play (fun _ _ _ => ControlReceive.play_step) (.start fiveByteUpload_start) hs,
    hfacts⟩

end Iocom
