import Iocom.ControlStream
import Iocom.StreamerCompletion

/-!
# Transfers which are given up

Either end of a transfer may time out, lose its connection or interrupt the
transfer.  The reading end is then never told that the transfer is completed, as
long as the writing end gives up before it has told so itself.
-/

namespace Iocom

variable {setup : StreamerSetup} {t : Transfer} {k k₁ k₂ : ℕ}

def StreamerStep.gaveUp : StreamerStep → Bool
  | .failed | .failed2 | .failedAndIdleSet => true
  | _ => false

def StreamerStep.unfinished : StreamerStep → Bool
  | .initialized | .initialized2 | .transferData => true
  | _ => false

def WriterEnd.NeverCompleted (writer : WriterEnd) : Prop :=
  ∀ signals ∈ writer.published, signals.signal ≠ .completed

theorem WriterEnd.NeverCompleted.set {writer : WriterEnd} (h : writer.NeverCompleted)
    {signals : WriterSignals} (hsignals : signals.signal ≠ .completed) :
    (writer.set signals).NeverCompleted := by
  intro other hother
  rcases List.mem_append.mp hother with hmem | hmem
  · exact h other hmem
  · rw [List.mem_singleton.mp hmem]
    exact hsignals

theorem WriterEnd.NeverCompleted.close {writer : WriterEnd} (h : writer.NeverCompleted) :
    writer.close.NeverCompleted :=
  (h.set (by simp)).set (by simp [WriterEnd.setSignal, WriterEnd.set])

structure Transfer.Aborted (t : Transfer) : Prop where
  lastRead : t.lastRead ≠ .completed
  gaveUp : t.reader.step.gaveUp ∨
    t.writer.step.gaveUp ∧ t.writer.NeverCompleted ∧ t.reader.step.unfinished

/-! ## Writing -/

section Writing

variable {writer : WriterEnd} {call : StreamerCall} {signal : StreamerState} {tail : ℤ}
  {data : Option (List UInt8)}

def WriterResult.GivesUp (result : WriterResult) : Prop :=
  result.writer.step.gaveUp ∧ result.writer.NeverCompleted ∧ result.moved = []

theorem StreamerSetup.deviceWrite_disconnected (hconnected : call.connected = false)
    (h : writer.NeverCompleted) :
    (setup.deviceWrite writer call signal tail data).GivesUp := by
  unfold StreamerSetup.deviceWrite
  by_cases hidle : writer.step = .failedAndIdleSet
  · simp [hidle, WriterResult.GivesUp, StreamerStep.gaveUp, h]
  · simp only [hconnected, hidle]
    exact ⟨rfl, h.set (by simp), rfl⟩

theorem StreamerSetup.controllerWrite_disconnected (hconnected : call.connected = false)
    (h : writer.NeverCompleted) :
    (setup.controllerWrite writer call signal tail data).GivesUp := by
  unfold StreamerSetup.controllerWrite
  by_cases hidle : writer.step = .failedAndIdleSet
  · simp [hidle, WriterResult.GivesUp, StreamerStep.gaveUp, h]
  · simp only [hconnected, hidle]
    exact ⟨rfl, h.set (by simp), rfl⟩

theorem StreamerSetup.deviceWrite_gaveUp (hstep : writer.step.gaveUp) (h : writer.NeverCompleted) :
    (setup.deviceWrite writer call signal tail data).GivesUp := by
  by_cases hconnected : call.connected = true
  · unfold StreamerSetup.deviceWrite
    rw [if_pos (Or.inl hconnected)]
    dsimp only
    cases hcase : writer.step with
    | failed => exact ⟨rfl, h.set (by simp), rfl⟩
    | failed2 =>
        dsimp only
        split_ifs
        · exact ⟨hstep, h, rfl⟩
        · exact ⟨rfl, (h.set (by simp)).set (by simp [WriterEnd.setSignal, WriterEnd.set]), rfl⟩
    | failedAndIdleSet => exact ⟨hstep, h, rfl⟩
    | _ => simp [hcase, StreamerStep.gaveUp] at hstep
  · exact deviceWrite_disconnected (Bool.eq_false_iff.mpr hconnected) h

theorem StreamerSetup.controllerWrite_gaveUp (hstep : writer.step.gaveUp)
    (h : writer.NeverCompleted) :
    (setup.controllerWrite writer call signal tail data).GivesUp := by
  by_cases hconnected : call.connected = true
  · unfold StreamerSetup.controllerWrite
    rw [if_pos (Or.inl hconnected)]
    dsimp only
    cases hcase : writer.step with
    | failed => exact ⟨rfl, h.set (by simp), rfl⟩
    | failed2 =>
        dsimp only
        split_ifs
        · exact ⟨hstep, h, rfl⟩
        · exact ⟨rfl, h.set (by simp), rfl⟩
    | failedAndIdleSet => exact ⟨hstep, h, rfl⟩
    | _ => simp [hcase, StreamerStep.gaveUp] at hstep
  · exact controllerWrite_disconnected (Bool.eq_false_iff.mpr hconnected) h

theorem WriterEnd.givesUp (h : writer.NeverCompleted) :
    WriterResult.GivesUp ⟨writer.to .failed, []⟩ :=
  ⟨rfl, h, rfl⟩

/-- A call while data is transferred is as without disturbance, or the writing
end gives up. -/
theorem StreamerSetup.deviceWriteData_or (h : writer.NeverCompleted) :
    setup.deviceWriteData writer call signal tail data =
        setup.deviceWriteData writer undisturbedCall signal tail data ∧ call.interrupt = false ∨
      (setup.deviceWriteData writer call signal tail data).GivesUp := by
  unfold StreamerSetup.deviceWriteData
  by_cases hstop : (signal ≠ .running ∧ signal ≠ .completed) ∨ call.interrupt
  · right
    rw [if_pos hstop]
    exact WriterEnd.givesUp h
  have hinterrupt : call.interrupt = false := by simpa using (not_or.mp hstop).2
  have hgo : ¬((signal ≠ .running ∧ signal ≠ .completed) ∨ undisturbedCall.interrupt) := by
    simpa [undisturbedCall] using (not_or.mp hstop).1
  rw [if_neg hstop, if_neg hgo]
  by_cases htail : tail < 0 ∨ setup.bufSz ≤ tail
  · rw [if_pos htail]
    exact .inr (WriterEnd.givesUp h)
  rw [if_neg htail, if_neg htail]
  cases data with
  | none => exact .inl ⟨rfl, hinterrupt⟩
  | some bytes =>
      dsimp only
      by_cases htime : (setup.writeInternal writer bytes tail).moved = [] ∧ bytes ≠ [] ∧
          call.elapsed
      · rw [if_pos htime]
        exact .inr (WriterEnd.givesUp h)
      · rw [if_neg htime, if_neg (fun hfailed => Bool.false_ne_true hfailed.2.2)]
        exact .inl ⟨rfl, hinterrupt⟩

theorem StreamerSetup.controllerWriteData_or (h : writer.NeverCompleted) :
    setup.controllerWriteData writer call signal tail data =
        setup.controllerWriteData writer undisturbedCall signal tail data ∨
      (setup.controllerWriteData writer call signal tail data).GivesUp := by
  unfold StreamerSetup.controllerWriteData
  by_cases hstop : signal ≠ .running ∨ call.interrupt
  · right
    rw [if_pos hstop]
    exact WriterEnd.givesUp h
  have hgo : ¬(signal ≠ .running ∨ undisturbedCall.interrupt) := by
    simpa [undisturbedCall] using (not_or.mp hstop).1
  rw [if_neg hstop, if_neg hgo]
  rcases data with _ | _ | ⟨byte, bytes⟩
  · exact .inl rfl
  · dsimp only
    by_cases htime : call.elapsed = true
    · rw [if_pos htime]
      exact .inr (WriterEnd.givesUp h)
    · rw [if_neg htime, if_neg (show ¬undisturbedCall.elapsed = true by decide)]
      exact .inl rfl
  · exact .inl rfl

/-- Before the end of the data, a call of a writing device is as without
disturbance, or the device gives up. -/
theorem StreamerSetup.deviceWrite_or (setup : StreamerSetup) (call : StreamerCall) (tail : ℤ)
    (data : Option (List UInt8)) (h : writer.NeverCompleted)
    (hstep : writer.step = .initialized ∨ writer.step = .transferData)
    (hsignal : writer.step = .initialized → signal = .running ∨ signal = .completed) :
    setup.deviceWrite writer call signal tail data =
        setup.deviceWrite writer undisturbedCall signal tail data ∧ call.interrupt = false ∨
      (setup.deviceWrite writer call signal tail data).GivesUp := by
  by_cases hconnected : call.connected = true
  · unfold StreamerSetup.deviceWrite
    rw [if_pos (Or.inl hconnected), if_pos (Or.inl undisturbed_connected)]
    dsimp only
    rcases hstep with hstep | hstep
    · have hgo : ¬(signal ≠ .running ∧ signal ≠ .completed) := by
        have := hsignal hstep
        tauto
      rw [hstep]
      dsimp only
      rw [if_neg hgo, if_neg hgo]
      have hstarts : (writer.setSignal .running).NeverCompleted := h.set (by simp)
      exact deviceWriteData_or (show ((writer.setSignal .running).to .transferData).NeverCompleted
        from hstarts)
    · rw [hstep]
      exact deviceWriteData_or h
  · exact .inr (deviceWrite_disconnected (Bool.eq_false_iff.mpr hconnected) h)

/-- Before the end of the data, a call of a writing controller is as without
disturbance, or the controller gives up. -/
theorem StreamerSetup.controllerWrite_or (setup : StreamerSetup) (call : StreamerCall)
    (signal : StreamerState) (tail : ℤ) (data : Option (List UInt8)) (h : writer.NeverCompleted)
    (hstep : writer.step.unfinished) :
    setup.controllerWrite writer call signal tail data =
        setup.controllerWrite writer undisturbedCall signal tail data ∨
      (setup.controllerWrite writer call signal tail data).GivesUp := by
  by_cases hconnected : call.connected = true
  · unfold StreamerSetup.controllerWrite
    rw [if_pos (Or.inl hconnected), if_pos (Or.inl undisturbed_connected)]
    dsimp only
    cases hcase : writer.step with
    | initialized => exact .inl rfl
    | initialized2 =>
        dsimp only
        by_cases hinterrupt : call.interrupt = true
        · rw [if_pos hinterrupt]
          exact .inr (WriterEnd.givesUp h)
        rw [if_neg hinterrupt, if_neg (show ¬undisturbedCall.interrupt = true by decide)]
        by_cases hrunning : signal = .running
        · rw [if_neg (not_not.mpr hrunning), if_neg (not_not.mpr hrunning)]
          exact controllerWriteData_or h
        · rw [if_pos hrunning, if_pos hrunning]
          by_cases htime : call.elapsed = true
          · rw [if_pos htime]
            exact .inr (WriterEnd.givesUp h)
          · rw [if_neg htime, if_neg (show ¬undisturbedCall.elapsed = true by decide)]
            exact .inl rfl
    | transferData => exact controllerWriteData_or h
    | _ => simp [hcase, StreamerStep.unfinished] at hstep
  · exact .inr (controllerWrite_disconnected (Bool.eq_false_iff.mpr hconnected) h)

end Writing

/-! ## Reading -/

section Reading

variable {reader : ReaderEnd} {call : StreamerCall} {seen : WriterSeen} {n : ℤ}
  {done : ReaderEnd → ReaderEnd}

def ReaderResult.GivesUp (result : ReaderResult) : Prop :=
  result.reader.step.gaveUp ∧ result.moved = []

theorem StreamerSetup.readData_or :
    setup.readData reader call seen n done = setup.readData reader undisturbedCall seen n done ∨
      (setup.readData reader call seen n done).GivesUp := by
  unfold StreamerSetup.readData
  by_cases hstop : (seen.signal ≠ .running ∧ seen.signal ≠ .completed) ∨ call.interrupt
  · right
    rw [if_pos hstop]
    exact ⟨rfl, rfl⟩
  have hgo : ¬((seen.signal ≠ .running ∧ seen.signal ≠ .completed) ∨
      undisturbedCall.interrupt) := by
    simpa [undisturbedCall] using (not_or.mp hstop).1
  rw [if_neg hstop, if_neg hgo]
  by_cases hhead : seen.head < 0 ∨ setup.bufSz ≤ seen.head
  · rw [if_pos hhead]
    exact .inr ⟨rfl, rfl⟩
  rw [if_neg hhead, if_neg hhead]
  cases streamerReadInternal seen.view setup.bufSz (osInt n) seen.head reader.tail
    seen.bufferConnected with
  | none => exact .inl rfl
  | some ring =>
      dsimp only
      by_cases hrunning : seen.signal = .running
      · rw [if_pos hrunning, if_pos hrunning]
        by_cases htime : ring.nbytes = 0 ∧ call.elapsed = true
        · rw [if_pos htime]
          exact .inr ⟨rfl, rfl⟩
        · have hgo : ¬(ring.nbytes = 0 ∧ undisturbedCall.elapsed = true) :=
            fun hfailed => Bool.false_ne_true hfailed.2
          rw [if_neg htime, if_neg hgo]
          exact .inl rfl
      · rw [if_neg hrunning, if_neg hrunning]
        exact .inl rfl

/-- Before all has been read, a call of a reading controller is as without
disturbance, or the controller gives up. -/
theorem StreamerSetup.controllerRead_or (setup : StreamerSetup) (call : StreamerCall)
    (seen : WriterSeen) (n : ℤ) (hstep : reader.step.unfinished) :
    setup.controllerRead reader call seen n =
        setup.controllerRead reader undisturbedCall seen n ∨
      (setup.controllerRead reader call seen n).GivesUp := by
  unfold StreamerSetup.controllerRead
  rw [if_pos (Or.inl undisturbed_connected)]
  by_cases hconnected : call.connected = true
  · rw [if_pos (Or.inl hconnected)]
    dsimp only
    cases hcase : reader.step with
    | initialized => exact .inl rfl
    | initialized2 =>
        dsimp only
        by_cases hsignal : seen.signal ≠ .running ∧ seen.signal ≠ .completed
        · rw [if_pos hsignal, if_pos hsignal]
          by_cases htime : call.elapsed = true
          · rw [if_pos htime]
            exact .inr ⟨rfl, rfl⟩
          · rw [if_neg htime, if_neg (show ¬undisturbedCall.elapsed = true by decide)]
            exact .inl rfl
        · rw [if_neg hsignal, if_neg hsignal]
          exact .inl rfl
    | transferData => exact readData_or
    | _ => simp [hcase, StreamerStep.unfinished] at hstep
  · right
    have hidle : reader.step ≠ .failedAndIdleSet := by
      intro hidle
      simp [hidle, StreamerStep.unfinished] at hstep
    rw [if_neg (by simp [hconnected, hidle])]
    exact ⟨rfl, rfl⟩

theorem StreamerSetup.deviceRead_or (setup : StreamerSetup) (call : StreamerCall)
    (seen : WriterSeen) (n : ℤ) (hstep : reader.step.unfinished) :
    setup.deviceRead reader call seen n = setup.deviceRead reader undisturbedCall seen n ∨
      (setup.deviceRead reader call seen n).GivesUp := by
  unfold StreamerSetup.deviceRead
  rw [if_pos (Or.inl undisturbed_connected)]
  by_cases hconnected : call.connected = true
  · rw [if_pos (Or.inl hconnected)]
    dsimp only
    cases hcase : reader.step with
    | initialized =>
        dsimp only
        split_ifs with hsignal
        · exact .inl rfl
        · exact readData_or
    | initialized2 => exact .inl rfl
    | transferData => exact readData_or
    | _ => simp [hcase, StreamerStep.unfinished] at hstep
  · right
    have hidle : reader.step ≠ .failedAndIdleSet := by
      intro hidle
      simp [hidle, StreamerStep.unfinished] at hstep
    rw [if_neg (by simp [hconnected, hidle])]
    exact ⟨rfl, rfl⟩

theorem StreamerSetup.controllerRead_gaveUp (hstep : reader.step.gaveUp) :
    (setup.controllerRead reader call seen n).GivesUp := by
  unfold StreamerSetup.controllerRead
  by_cases hconnected : call.connected ∨ reader.step = .failedAndIdleSet
  · rw [if_pos hconnected]
    dsimp only
    cases hcase : reader.step with
    | failed => exact ⟨rfl, rfl⟩
    | failed2 =>
        dsimp only
        split_ifs
        · exact ⟨hstep, rfl⟩
        · exact ⟨rfl, rfl⟩
    | failedAndIdleSet => exact ⟨hstep, rfl⟩
    | _ => simp [hcase, StreamerStep.gaveUp] at hstep
  · rw [if_neg hconnected]
    exact ⟨rfl, rfl⟩

theorem StreamerSetup.deviceRead_gaveUp (hstep : reader.step.gaveUp) :
    (setup.deviceRead reader call seen n).GivesUp := by
  unfold StreamerSetup.deviceRead
  by_cases hconnected : call.connected ∨ reader.step = .failedAndIdleSet
  · rw [if_pos hconnected]
    dsimp only
    cases hcase : reader.step with
    | failed => exact ⟨rfl, rfl⟩
    | failed2 =>
        dsimp only
        split_ifs
        · exact ⟨hstep, rfl⟩
        · exact ⟨rfl, rfl⟩
    | failedAndIdleSet => exact ⟨hstep, rfl⟩
    | _ => simp [hcase, StreamerStep.gaveUp] at hstep
  · rw [if_neg hconnected]
    exact ⟨rfl, rfl⟩

end Reading

/-! ## Statuses -/

theorem controllerReadStatus_gaveUp {step : StreamerStep} (h : step.gaveUp ∨ step.unfinished) :
    controllerReadStatus step ≠ .completed := by
  cases step <;> simp [StreamerStep.gaveUp, StreamerStep.unfinished, controllerReadStatus] at h ⊢

theorem deviceStatus_gaveUp {step : StreamerStep} (h : step.gaveUp ∨ step.unfinished) :
    deviceStatus step ≠ .completed := by
  cases step <;> simp [StreamerStep.gaveUp, StreamerStep.unfinished, deviceStatus] at h ⊢

theorem StreamerSetup.checkRead_ne_completed {result : ReaderResult} {status : StreamerStatus}
    (h : status ≠ .completed) (cs : ℕ) : (setup.checkRead result status cs).2.2 ≠ .completed := by
  unfold StreamerSetup.checkRead
  split_ifs with hdisabled
  · exact h
  · simp [h]

theorem StreamerSetup.readData_unfinished {reader : ReaderEnd} {call : StreamerCall}
    {seen : WriterSeen} {n : ℤ} {done : ReaderEnd → ReaderEnd} (hstep : reader.step.unfinished)
    (hsignal : seen.signal ≠ .completed) :
    (setup.readData reader call seen n done).reader.step.gaveUp ∨
      (setup.readData reader call seen n done).reader.step.unfinished := by
  unfold StreamerSetup.readData
  by_cases hstop : (seen.signal ≠ .running ∧ seen.signal ≠ .completed) ∨ call.interrupt
  · rw [if_pos hstop]
    exact .inl rfl
  rw [if_neg hstop]
  by_cases hhead : seen.head < 0 ∨ setup.bufSz ≤ seen.head
  · rw [if_pos hhead]
    exact .inl rfl
  rw [if_neg hhead]
  have hrunning : seen.signal = .running := by tauto
  cases streamerReadInternal seen.view setup.bufSz (osInt n) seen.head reader.tail
    seen.bufferConnected with
  | none => exact .inl rfl
  | some ring =>
      dsimp only
      rw [if_pos hrunning]
      split_ifs
      all_goals first | exact .inl rfl | exact .inr hstep

theorem StreamerSetup.controllerRead_unfinished {reader : ReaderEnd} {call : StreamerCall}
    {seen : WriterSeen} {n : ℤ} (hstep : reader.step.unfinished)
    (hsignal : seen.signal ≠ .completed) :
    (setup.controllerRead reader call seen n).reader.step.gaveUp ∨
      (setup.controllerRead reader call seen n).reader.step.unfinished := by
  unfold StreamerSetup.controllerRead
  by_cases hconnected : call.connected ∨ reader.step = .failedAndIdleSet
  · rw [if_pos hconnected]
    dsimp only
    cases hcase : reader.step with
    | initialized => exact .inr rfl
    | initialized2 =>
        dsimp only
        split_ifs
        · exact .inl rfl
        · exact .inr hstep
        · exact .inr rfl
    | transferData => exact readData_unfinished hstep hsignal
    | _ => simp [hcase, StreamerStep.unfinished] at hstep
  · rw [if_neg hconnected]
    exact .inl rfl

theorem StreamerSetup.deviceRead_unfinished {reader : ReaderEnd} {call : StreamerCall}
    {seen : WriterSeen} {n : ℤ} (hstep : reader.step.unfinished)
    (hsignal : seen.signal ≠ .completed) :
    (setup.deviceRead reader call seen n).reader.step.gaveUp ∨
      (setup.deviceRead reader call seen n).reader.step.unfinished := by
  unfold StreamerSetup.deviceRead
  by_cases hconnected : call.connected ∨ reader.step = .failedAndIdleSet
  · rw [if_pos hconnected]
    dsimp only
    cases hcase : reader.step with
    | initialized =>
        dsimp only
        split_ifs
        · exact .inl rfl
        · exact readData_unfinished rfl hsignal
    | initialized2 => exact .inr hstep
    | transferData => exact readData_unfinished hstep hsignal
    | _ => simp [hcase, StreamerStep.unfinished] at hstep
  · rw [if_neg hconnected]
    exact .inl rfl

/-! ## Transfers -/

theorem Transfer.Active.neverCompleted (h : t.Active setup)
    (hstep : t.writer.step ≠ .transferDone) : t.writer.NeverCompleted := by
  intro signals hsignals
  obtain ⟨i, hi⟩ := List.mem_iff_getElem?.mp hsignals
  exact h.not_completed hstep hi

theorem Transfer.Active.reader_unfinished (h : t.Active setup) : t.reader.step.unfinished := by
  rcases h.readerStep with hstep | hstep | ⟨hstep, -⟩ <;> simp [hstep, StreamerStep.unfinished]

theorem Transfer.Active.writerGivesUp (h : t.Active setup) {result : WriterResult}
    (hresult : result.GivesUp) : (t.afterWrite k result).Aborted where
  lastRead := by simp [Transfer.afterWrite, h.lastRead]
  gaveUp := .inr ⟨hresult.1, hresult.2.1, h.reader_unfinished⟩

theorem Transfer.Aborted.afterWrite (h : t.Aborted) {result : WriterResult}
    (hresult : t.writer.step.gaveUp → t.writer.NeverCompleted → result.GivesUp) :
    (t.afterWrite k result).Aborted := by
  refine ⟨h.lastRead, h.gaveUp.imp_right fun hwriter => ?_⟩
  obtain ⟨hstep, hnever, hreader⟩ := hwriter
  obtain ⟨hstep', hnever', -⟩ := hresult hstep hnever
  exact ⟨hstep', hnever', hreader⟩

theorem Transfer.Aborted.seeSignals (h : t.Aborted) : { t with seenByWriter := k }.Aborted :=
  ⟨h.lastRead, h.gaveUp⟩

theorem Transfer.Aborted.closeWriter (h : t.Aborted) :
    { t with writer := t.writer.close }.Aborted := by
  refine ⟨h.lastRead, h.gaveUp.imp_right fun hwriter => ?_⟩
  exact ⟨hwriter.1, hwriter.2.1.close, hwriter.2.2⟩

theorem Transfer.Aborted.closeReader (h : t.Aborted) :
    { t with reader := t.reader.close }.Aborted := ⟨h.lastRead, h.gaveUp⟩

/-- The reading end gives up, or goes on without the word that all is written. -/
theorem Transfer.Aborted.afterRead (h : t.Aborted) {result : ReaderResult}
    {status : StreamerStatus} {cs : ℕ}
    (hgaveUp : t.reader.step.gaveUp → result.reader.step.gaveUp)
    (hunfinished : t.reader.step.unfinished → t.writer.NeverCompleted →
      result.reader.step.gaveUp ∨ result.reader.step.unfinished)
    (hstatus : result.reader.step.gaveUp ∨ result.reader.step.unfinished →
      status ≠ .completed) :
    (t.afterRead k (setup.checkRead result status cs)).Aborted := by
  have hstep : result.reader.step.gaveUp ∨
      (t.writer.step.gaveUp ∧ t.writer.NeverCompleted ∧ result.reader.step.unfinished) := by
    rcases h.gaveUp with hreader | ⟨hwriter, hnever, hreader⟩
    · exact .inl (hgaveUp hreader)
    · exact (hunfinished hreader hnever).imp_right fun hnext => ⟨hwriter, hnever, hnext⟩
  constructor
  · exact StreamerSetup.checkRead_ne_completed
      (hstatus (hstep.imp_right fun hnext => hnext.2.2)) cs
  · simpa only [Transfer.afterRead, StreamerSetup.checkRead_step] using hstep

theorem Transfer.readerGivesUp {result : ReaderResult} (hresult : result.GivesUp)
    {status : StreamerStatus} {cs : ℕ} (hstatus : status ≠ .completed) :
    (t.afterRead k (setup.checkRead result status cs)).Aborted where
  lastRead := StreamerSetup.checkRead_ne_completed hstatus cs
  gaveUp := by
    left
    simpa only [Transfer.afterRead, StreamerSetup.checkRead_step] using hresult.1

section Reads

variable {first second third : WriterSignals} {view : Mem}

theorem Transfer.Aborted.controllerRead (h : t.Aborted)
    (hfirst : t.writer.published[k]? = some first) (setup : StreamerSetup) (call : StreamerCall)
    (seen : WriterSeen) (hseen : seen.signal = first.signal) (n : ℤ) (k₂ cs : ℕ) :
    let result := setup.controllerRead t.reader call seen n
    (t.afterRead k₂ (setup.checkRead result (controllerReadStatus result.reader.step)
      cs)).Aborted := by
  refine h.afterRead (fun hstep => (StreamerSetup.controllerRead_gaveUp hstep).1)
    (fun hstep hnever => ?_) controllerReadStatus_gaveUp
  exact StreamerSetup.controllerRead_unfinished hstep
    (hseen ▸ hnever first (List.mem_of_getElem? hfirst))

theorem Transfer.Aborted.deviceRead (h : t.Aborted)
    (hfirst : t.writer.published[k]? = some first) (setup : StreamerSetup) (call : StreamerCall)
    (seen : WriterSeen) (hseen : seen.signal = first.signal) (n : ℤ) (k₂ cs : ℕ) :
    let result := setup.deviceRead t.reader call seen n
    (t.afterRead k₂ (setup.checkRead result (deviceStatus result.reader.step)
      cs)).Aborted := by
  refine h.afterRead (fun hstep => (StreamerSetup.deviceRead_gaveUp hstep).1)
    (fun hstep hnever => ?_) deviceStatus_gaveUp
  exact StreamerSetup.deviceRead_unfinished hstep
    (hseen ▸ hnever first (List.mem_of_getElem? hfirst))

theorem Transfer.Active.seeSignals (h : t.Active setup) {second : ReaderSignals}
    (hseen : t.seenByWriter ≤ k) (hsecond : t.reader.published[k]? = some second) :
    Transfer.Active setup { t with seenByWriter := k } := by
  have hstep : ActiveWriterStep t.writer.step k :=
    h.writerStep.imp_right fun hstep =>
      hstep.imp_right fun hstep => ⟨hstep.1, hstep.2.trans hseen⟩
  have hlooks := h.writerLooks hseen hsecond id h.writerRunning hstep
  unfold Transfer.afterWrite at hlooks
  dsimp only at hlooks
  rw [List.append_nil] at hlooks
  exact hlooks

theorem Transfer.Active.not_drained (h : t.Active setup) : ¬t.Drained setup := by
  intro hdrained
  have hunfinished := h.reader_unfinished
  rcases hdrained.readerStep with hstep | hstep | hstep <;>
    simp [hstep, StreamerStep.unfinished] at hunfinished

theorem Transfer.Drained.seeSignals (h : t.Drained setup) :
    Transfer.Drained setup { t with seenByWriter := k } :=
  ⟨h.read, h.writerStep, h.readerStep, h.cs, h.seenCs, h.readerSum, h.lastRead⟩

theorem Transfer.Drained.closeReader (h : t.Drained setup) :
    Transfer.Drained setup { t with reader := t.reader.close } :=
  ⟨h.read, h.writerStep, h.readerStep, h.cs, h.seenCs, h.readerSum, h.lastRead⟩

theorem Transfer.Drained.closeWriter (h : t.Drained setup) :
    Transfer.Drained setup { t with writer := t.writer.close } := by
  have hstep : t.writer.close.step = .transferDone ∨ t.writer.close.step = .allCompleted :=
    h.writerStep
  have hkeeps := h.writerKeeps (k := t.seenByWriter) hstep rfl (List.append_assoc _ _ _)
    (by simp [WriterEnd.setSignal, WriterEnd.set])
  unfold Transfer.afterWrite at hkeeps
  dsimp only at hkeeps
  rw [List.append_nil] at hkeeps
  exact hkeeps

/-! ### What is written -/

/-- There is room for so many bytes behind the tail which the writing end has
seen last. -/
def Transfer.Room (setup : StreamerSetup) (t : Transfer) (bytes : ℕ) : Prop :=
  ∃ seen, t.reader.published[t.seenByWriter]? = some seen ∧
    t.written.length + bytes < seen.count + setup.bufSz

section Writes

variable {first second : ReaderSignals}

theorem Transfer.Active.room_later (h : t.Active setup) {bytes : ℕ} (hroom : t.Room setup bytes)
    (hseen : t.seenByWriter ≤ k) (hsecond : t.reader.published[k]? = some second) :
    t.written.length + bytes < second.count + setup.bufSz := by
  obtain ⟨seen, hat, hlt⟩ := hroom
  have horder := History.count_le_of_pairwise h.ring.tailsInOrder (Transfer.ring_tail hat)
    (Transfer.ring_tail hsecond) hseen
  dsimp only at horder
  omega

/-- `ioc_streamer_tx_available` tells how much room there is. -/
theorem Transfer.Active.available (h : t.Active setup) (hseen : t.seenByWriter ≤ k)
    (hsecond : t.reader.published[k]? = some second) {bytes : ℤ}
    (hbytes : bytes = streamerTxAvailable setup.bufSz t.writer.head second.tail) :
    Transfer.Room setup { t with seenByWriter := k } bytes.toNat := by
  obtain ⟨hindex, hcount, hroom⟩ := h.ring.seesTail hseen (Transfer.ring_tail hsecond)
  have hread := h.ring.length_read_le
  have hhead : t.writer.head = ((t.written.length % setup.bufSz : ℕ) : ℤ) := h.ring.head
  change second.tail = _ at hindex
  change second.count ≤ t.read.length at hcount
  change t.written.length < second.count + setup.bufSz at hroom
  change t.read.length ≤ t.written.length at hread
  refine ⟨second, hsecond, ?_⟩
  rw [hbytes, hhead, hindex, streamerTxAvailable_eq setup.bufSz_pos (by omega) hroom]
  change t.written.length + _ < _
  omega

theorem Transfer.Active.writeInternal_moved (h : t.Active setup)
    (hsz : setup.bufSz ≤ 0x80000000) (hseen : t.seenByWriter ≤ k)
    (hsecond : t.reader.published[k]? = some second) {writer : WriterEnd}
    (hbuffer : writer.signals.buffer = t.writer.signals.buffer)
    (hhead : writer.head = t.writer.head) {data : List UInt8} (hroom : t.Room setup data.length) :
    (setup.writeInternal writer data second.tail).moved = data := by
  have hlater := h.room_later hroom hseen hsecond
  obtain ⟨-, hcount, -⟩ := h.ring.seesTail hseen (Transfer.ring_tail hsecond)
  have hread := h.ring.length_read_le
  change second.count ≤ t.read.length at hcount
  change t.read.length ≤ t.written.length at hread
  have hlength : osInt data.length = data.length := osInt_of_range (by omega) (by omega)
  have hprogress := h.ring.writer setup.bufSz_pos data hseen (Transfer.ring_tail hsecond)
  unfold StreamerSetup.writeInternal
  dsimp only
  rw [hlength, Int.toNat_natCast, List.take_length, hbuffer, hhead]
  refine hprogress.moved.trans (List.take_of_length_le ?_)
  change data.length ≤ writeCount setup.bufSz data.length t.written.length second.count
  unfold writeCount
  omega

theorem StreamerSetup.writeInternal_step (writer : WriterEnd) (bytes : List UInt8) (tail : ℤ) :
    (setup.writeInternal writer bytes tail).writer.step = writer.step := by
  unfold StreamerSetup.writeInternal
  dsimp only
  split_ifs <;> rfl

theorem Transfer.Active.deviceWrite_moved (h : t.Active setup) (hsz : setup.bufSz ≤ 0x80000000)
    (hseen : t.seenByWriter ≤ k) (horder : k ≤ k₁) (hstarted : 1 ≤ t.seenByWriter)
    (hfirst : t.reader.published[k]? = some first)
    (hsecond : t.reader.published[k₁]? = some second)
    (hstep : t.writer.step = .initialized ∨ t.writer.step = .transferData)
    {data : List UInt8} (hroom : t.Room setup data.length) :
    let result := setup.deviceWrite t.writer undisturbedCall first.signal second.tail (some data)
    result.moved = data ∧ result.writer.step = .transferData := by
  have hrunning := h.reader_running (hstarted.trans hseen) hfirst
  have hgo : ¬((first.signal ≠ .running ∧ first.signal ≠ .completed) ∨
      undisturbedCall.interrupt) := by
    rw [hrunning]
    decide
  have htime : ∀ result : WriterResult,
      ¬(result.moved = [] ∧ data ≠ [] ∧ undisturbedCall.elapsed = true) :=
    fun _ hfailed => Bool.false_ne_true hfailed.2.2
  unfold StreamerSetup.deviceWrite
  rw [if_pos (Or.inl undisturbed_connected)]
  dsimp only
  rcases hstep with hstep | hstep <;> rw [hstep] <;> dsimp only
  · rw [if_neg (not_or.mp hgo).1]
    unfold StreamerSetup.deviceWriteData
    rw [if_neg hgo, if_neg (h.tail_bounds hsecond)]
    dsimp only
    rw [if_neg (htime _)]
    exact ⟨h.writeInternal_moved hsz (hseen.trans horder) hsecond rfl rfl hroom,
      StreamerSetup.writeInternal_step _ data second.tail⟩
  · unfold StreamerSetup.deviceWriteData
    rw [if_neg hgo, if_neg (h.tail_bounds hsecond)]
    dsimp only
    rw [if_neg (htime _)]
    exact ⟨h.writeInternal_moved hsz (hseen.trans horder) hsecond rfl rfl hroom,
      (StreamerSetup.writeInternal_step _ data second.tail).trans hstep⟩

/-- The end of the data moves nothing, and the writing device then waits. -/
theorem Transfer.Active.deviceWrite_end (h : t.Active setup) (hseen : t.seenByWriter ≤ k)
    (hstarted : 1 ≤ t.seenByWriter) (hfirst : t.reader.published[k]? = some first)
    (hsecond : t.reader.published[k₁]? = some second)
    (hstep : t.writer.step = .initialized ∨ t.writer.step = .transferData ∨
      t.writer.step = .transferDone) :
    let result := setup.deviceWrite t.writer undisturbedCall first.signal second.tail none
    result.moved = [] ∧ result.writer.step = .transferDone := by
  have hrunning := h.reader_running (hstarted.trans hseen) hfirst
  have hgo : ¬((first.signal ≠ .running ∧ first.signal ≠ .completed) ∨
      undisturbedCall.interrupt) := by
    rw [hrunning]
    decide
  unfold StreamerSetup.deviceWrite
  rw [if_pos (Or.inl undisturbed_connected)]
  dsimp only
  rcases hstep with hstep | hstep | hstep <;> rw [hstep] <;> dsimp only
  · rw [if_neg (not_or.mp hgo).1]
    unfold StreamerSetup.deviceWriteData
    rw [if_neg hgo, if_neg (h.tail_bounds hsecond)]
    exact ⟨rfl, rfl⟩
  · unfold StreamerSetup.deviceWriteData
    rw [if_neg hgo, if_neg (h.tail_bounds hsecond)]
    exact ⟨rfl, rfl⟩
  · rw [hrunning]
    exact ⟨rfl, hstep⟩

/-- A device which has told that all is written only waits for the other end. -/
theorem StreamerSetup.deviceWrite_stays (setup : StreamerSetup) {writer : WriterEnd}
    {call : StreamerCall} (hstep : writer.step = .transferDone ∨ writer.step = .allCompleted)
    (hcall : call.elapsed = false ∧ call.connected = true) (signal : StreamerState) (tail : ℤ)
    (data : Option (List UInt8)) :
    let result := setup.deviceWrite writer call signal tail data
    result = setup.deviceWrite writer undisturbedCall signal tail data ∧ result.moved = [] ∧
      (result.writer.step = .transferDone ∨ result.writer.step = .allCompleted) := by
  unfold StreamerSetup.deviceWrite
  rw [if_pos (Or.inl hcall.2), if_pos (Or.inl undisturbed_connected), hcall.1, hcall.2]
  dsimp only
  rcases hstep with hstep | hstep <;> rw [hstep] <;> dsimp only
  · refine ⟨rfl, ?_⟩
    split_ifs
    · exact ⟨rfl, .inl hstep⟩
    · exact ⟨rfl, .inr rfl⟩
  · exact ⟨rfl, rfl, .inr hstep⟩

/-- What a controller writes is the first of its data, and it tells that all is
written at the end of the data only. -/
theorem Transfer.Active.controllerWrite_moved (h : t.Active setup) (hseen : t.seenByWriter ≤ k)
    (hsecond : t.reader.published[k]? = some second) (hstep : t.writer.step.unfinished)
    (signal : StreamerState) (data : Option (List UInt8)) :
    let result := setup.controllerWrite t.writer undisturbedCall signal second.tail data
    result.moved <+: data.getD [] ∧
      (result.writer.step = .transferDone ∨ result.writer.step = .allCompleted → data = none) := by
  have hdata : ∀ writer : WriterEnd, writer.signals.buffer = t.writer.signals.buffer →
      writer.head = t.writer.head → writer.step = .transferData →
      let result := setup.controllerWriteData writer undisturbedCall signal second.tail data
      result.moved <+: data.getD [] ∧
        (result.writer.step = .transferDone ∨ result.writer.step = .allCompleted →
          data = none) := by
    intro writer hbuffer hhead hwriter
    unfold StreamerSetup.controllerWriteData
    by_cases hstop : signal ≠ .running ∨ undisturbedCall.interrupt
    · rw [if_pos hstop]
      exact ⟨List.nil_prefix, by simp [WriterEnd.to]⟩
    rw [if_neg hstop]
    match data with
    | none => exact ⟨List.nil_prefix, fun _ => rfl⟩
    | some [] => exact ⟨List.nil_prefix, by simp [undisturbedCall, hwriter]⟩
    | some (byte :: bytes) =>
        dsimp only
        rw [if_neg (h.tail_bounds hsecond)]
        refine ⟨?_, by simp [StreamerSetup.writeInternal_step, hwriter]⟩
        have hprogress := h.ring.writer setup.bufSz_pos
          ((byte :: bytes).take (osInt (byte :: bytes).length).toNat) hseen
          (Transfer.ring_tail hsecond)
        unfold StreamerSetup.writeInternal
        dsimp only
        rw [hbuffer, hhead]
        exact (hprogress.moved ▸ List.take_prefix _ _).trans (List.take_prefix _ _)
  unfold StreamerSetup.controllerWrite
  rw [if_pos (Or.inl undisturbed_connected)]
  dsimp only
  cases hcase : t.writer.step with
  | initialized => exact ⟨List.nil_prefix, by simp [WriterEnd.to]⟩
  | initialized2 =>
      dsimp only
      rw [if_neg (show ¬undisturbedCall.interrupt = true by decide)]
      by_cases hrunning : signal = .running
      · rw [if_neg (not_not.mpr hrunning)]
        exact hdata (t.writer.to .transferData) rfl rfl rfl
      · rw [if_pos hrunning, if_neg (show ¬undisturbedCall.elapsed = true by decide)]
        exact ⟨List.nil_prefix, by simp [hcase]⟩
  | transferData => exact hdata t.writer rfl rfl hcase
  | _ => simp [hcase, StreamerStep.unfinished] at hstep

end Writes

/-! ### What is read -/

theorem StreamerSetup.readData_published {reader : ReaderEnd} {call : StreamerCall}
    {seen : WriterSeen} {n : ℤ} {done : ReaderEnd → ReaderEnd}
    (hdone : ∀ reader, reader.published <+: (done reader).published) :
    reader.published <+: (setup.readData reader call seen n done).reader.published := by
  unfold StreamerSetup.readData
  by_cases hstop : (seen.signal ≠ .running ∧ seen.signal ≠ .completed) ∨ call.interrupt
  · rw [if_pos hstop]
    exact List.prefix_rfl
  rw [if_neg hstop]
  by_cases hhead : seen.head < 0 ∨ setup.bufSz ≤ seen.head
  · rw [if_pos hhead]
    exact List.prefix_rfl
  rw [if_neg hhead]
  cases streamerReadInternal seen.view setup.bufSz (osInt n) seen.head reader.tail
    seen.bufferConnected with
  | none => exact List.prefix_rfl
  | some ring =>
      dsimp only
      generalize hmoved : (if ring.nbytes ≠ 0 then
        { reader with tail := ring.ltail }.set
          { reader.signals with
            tail := ring.ltail
            count := reader.signals.count + ring.moved.length }
        else reader) = moved
      have hprefix : reader.published <+: moved.published := by
        rw [← hmoved]
        split_ifs
        · exact List.prefix_append _ _
        · exact List.prefix_rfl
      split_ifs
      · exact List.prefix_rfl
      · exact hprefix
      · exact hprefix.trans (hdone moved)

theorem StreamerSetup.controllerRead_published (reader : ReaderEnd) (call : StreamerCall)
    (seen : WriterSeen) (n : ℤ) :
    reader.published <+: (setup.controllerRead reader call seen n).reader.published := by
  unfold StreamerSetup.controllerRead
  generalize hopened : (if call.connected ∨ reader.step = .failedAndIdleSet then reader
    else (reader.setSignal .idle).to .failedAndIdleSet) = opened
  have hprefix : reader.published <+: opened.published := by
    rw [← hopened]
    split_ifs
    · exact List.prefix_rfl
    · exact List.prefix_append _ _
  refine hprefix.trans ?_
  dsimp only
  cases opened.step with
  | initialized => exact List.prefix_append _ _
  | initialized2 =>
      dsimp only
      split_ifs <;> exact List.prefix_rfl
  | transferData => exact readData_published fun reader => List.prefix_append _ _
  | transferDone => exact List.prefix_append _ _
  | transferDone2 =>
      dsimp only
      split_ifs
      · exact List.prefix_rfl
      · exact List.prefix_append _ _
  | failed => exact List.prefix_append _ _
  | failed2 =>
      dsimp only
      split_ifs <;> exact List.prefix_rfl
  | allCompleted => exact List.prefix_rfl
  | failedAndIdleSet => exact List.prefix_rfl

/-- A stream is read with a buffer for all which can be unread. -/
theorem Transfer.Active.unread_le (h : t.Active setup) (hsz : setup.bufSz ≤ 0x80000000)
    (hsecond : t.writer.published[k₁]? = some second) :
    setup.unread second.head t.reader.tail ≤ osInt setup.chunkSz := by
  have hhead := h.head_bounds hsecond
  have htail := index_bounds setup.bufSz_pos h.ring.tail
  change 0 ≤ t.reader.tail ∧ t.reader.tail < (setup.bufSz : ℤ) at htail
  have hpos := setup.bufSz_pos
  have hchunk : osInt setup.chunkSz = (setup.bufSz : ℤ) - 1 := by
    unfold StreamerSetup.chunkSz
    rw [osInt_of_range (by omega) (by omega)]
    omega
  rw [hchunk]
  unfold StreamerSetup.unread
  split_ifs <;> omega

theorem Transfer.Active.controllerReads (h : t.Active setup) (hsz : setup.bufSz ≤ 0x80000000)
    (hseen : t.seenByReader ≤ k) (horder : k ≤ k₁) (horder' : k₁ ≤ k₂)
    (hfirst : t.writer.published[k]? = some first)
    (hsecond : t.writer.published[k₁]? = some second)
    (hthird : t.writer.published[k₂]? = some third) (hview : t.Views setup k₁ view)
    (call : StreamerCall) :
    let result := setup.controllerRead t.reader call
      ⟨first.signal, second.head, view, (true, true)⟩ setup.chunkSz
    let after := t.afterRead k₂
      (setup.checkRead result (controllerReadStatus result.reader.step) third.cs)
    after.Active setup ∨ after.Drained setup ∨ after.Aborted := by
  dsimp only
  rcases setup.controllerRead_or call ⟨first.signal, second.head, view, (true, true)⟩
    setup.chunkSz h.reader_unfinished with hsame | hgivesUp
  · rw [hsame]
    rw [← or_assoc]
    exact .inl (h.controllerRead hseen horder horder' hfirst hsecond hthird hview
      (fun _ _ => h.unread_le hsz hsecond) third.cs)
  · exact .inr (.inr (Transfer.readerGivesUp hgivesUp
      (controllerReadStatus_gaveUp (.inl hgivesUp.1))))

/-- A controller which has read all goes on to the end, or gives up. -/
theorem Transfer.Drained.controllerReads (h : t.Drained setup) (hseen : t.seenByReader ≤ k₂)
    (hthird : t.writer.published[k₂]? = some third) (call : StreamerCall) (seen : WriterSeen)
    (n : ℤ) :
    let result := setup.controllerRead t.reader call seen n
    let after := t.afterRead k₂
      (setup.checkRead result (controllerReadStatus result.reader.step) third.cs)
    after.Drained setup ∨ after.Aborted := by
  dsimp only
  by_cases hconnected : call.connected = true
  · left
    unfold StreamerSetup.controllerRead
    rw [if_pos (Or.inl hconnected)]
    dsimp only
    rcases h.readerStep with hstep | hstep | hstep
    · rw [hstep]
      exact h.readerWaits hseen third.cs (Or.inr rfl) rfl
    · rw [hstep]
      dsimp only
      split_ifs
      · rw [hstep]
        exact h.readerWaits hseen third.cs (Or.inr hstep) rfl
      · exact h.readerCompletes hseen hthird rfl rfl
    · simp only [hstep]
      exact h.readerCompletes hseen hthird hstep rfl
  · right
    have hgivesUp : (setup.controllerRead t.reader call seen n).GivesUp := by
      unfold StreamerSetup.controllerRead
      have hidle : t.reader.step ≠ .failedAndIdleSet := by
        rcases h.readerStep with hstep | hstep | hstep <;> simp [hstep]
      rw [if_neg (by simp [hconnected, hidle])]
      exact ⟨rfl, rfl⟩
    exact Transfer.readerGivesUp hgivesUp (controllerReadStatus_gaveUp (.inl hgivesUp.1))

theorem Transfer.Active.deviceReads (h : t.Active setup) (hsz : setup.bufSz ≤ 0x80000000)
    (hseen : t.seenByReader ≤ k) (horder : k ≤ k₁) (horder' : k₁ ≤ k₂)
    (hfirst : t.writer.published[k]? = some first)
    (hsecond : t.writer.published[k₁]? = some second)
    (hthird : t.writer.published[k₂]? = some third) (hview : t.Views setup k₁ view)
    (hnever : t.reader.step ≠ .initialized2) (hstarted : 1 ≤ k) (call : StreamerCall) :
    let result := setup.deviceRead t.reader call
      ⟨first.signal, second.head, view, (true, true)⟩ setup.chunkSz
    let after := t.afterRead k₂
      (setup.checkRead result (deviceStatus result.reader.step) third.cs)
    (after.Active setup ∨ after.Drained setup) ∧ after.reader.step ≠ .initialized2 ∧
        after.reader.step ≠ .transferDone2 ∨ after.Aborted := by
  dsimp only
  have hsignal : first.signal = .running ∨ first.signal = .completed := by
    rcases h.writerTells k first hstarted hfirst with hrunning | ⟨hcompleted, -⟩
    · exact .inl hrunning
    · exact .inr hcompleted
  rcases setup.deviceRead_or call ⟨first.signal, second.head, view, (true, true)⟩
    setup.chunkSz h.reader_unfinished with hsame | hgivesUp
  · rw [hsame]
    exact .inl (h.deviceRead hseen horder horder' hfirst hsecond hthird hview hnever
      (fun _ => hsignal) (fun _ _ => h.unread_le hsz hsecond) third.cs)
  · exact .inr (Transfer.readerGivesUp hgivesUp (deviceStatus_gaveUp (.inl hgivesUp.1)))

theorem Transfer.Drained.deviceReads (h : t.Drained setup) (hseen : t.seenByReader ≤ k₂)
    (hthird : t.writer.published[k₂]? = some third)
    (hnever : t.reader.step ≠ .transferDone2) (call : StreamerCall) (seen : WriterSeen)
    (n : ℤ) :
    let result := setup.deviceRead t.reader call seen n
    let after := t.afterRead k₂
      (setup.checkRead result (deviceStatus result.reader.step) third.cs)
    after.Drained setup ∧ after.reader.step ≠ .initialized2 ∧
        after.reader.step ≠ .transferDone2 ∨ after.Aborted := by
  dsimp only
  by_cases hconnected : call.connected = true
  · left
    have hsame : setup.deviceRead t.reader call seen n =
        setup.deviceRead t.reader undisturbedCall seen n := by
      unfold StreamerSetup.deviceRead
      rw [if_pos (Or.inl hconnected), if_pos (Or.inl undisturbed_connected)]
      dsimp only
      rcases h.readerStep with hstep | hstep | hstep
      · rw [hstep]
      · exact absurd hstep hnever
      · rw [hstep]
    obtain ⟨hread, hdone⟩ := h.deviceRead hseen hthird hnever seen n
    rw [hsame]
    refine ⟨hread, ?_⟩
    unfold Transfer.afterRead
    rw [StreamerSetup.checkRead_step, hdone]
    constructor <;> decide
  · right
    have hgivesUp : (setup.deviceRead t.reader call seen n).GivesUp := by
      unfold StreamerSetup.deviceRead
      have hidle : t.reader.step ≠ .failedAndIdleSet := by
        rcases h.readerStep with hstep | hstep | hstep <;> simp [hstep]
      rw [if_neg (by simp [hconnected, hidle])]
      exact ⟨rfl, rfl⟩
    exact Transfer.readerGivesUp hgivesUp (deviceStatus_gaveUp (.inl hgivesUp.1))

theorem Transfer.Active.seeWriter (h : t.Active setup) (hseen : t.seenByReader ≤ k)
    (hfirst : t.writer.published[k]? = some first) :
    Transfer.Active setup { t with seenByReader := k } := by
  have hstep : ActiveReaderStep t.reader.step k :=
    h.readerStep.imp_right fun hstep => hstep.imp_right fun hstep => ⟨hstep.1, hstep.2.trans hseen⟩
  have hlooks := h.readerLooks hseen hfirst hstep h.readerRunning
  unfold Transfer.afterRead at hlooks
  dsimp only at hlooks
  rw [List.append_nil, ← h.lastRead] at hlooks
  exact hlooks

theorem Transfer.Aborted.seeWriter (h : t.Aborted) : { t with seenByReader := k }.Aborted :=
  ⟨h.lastRead, h.gaveUp⟩

/-- A device which starts to read with the flag to interrupt gives up. -/
theorem StreamerSetup.deviceRead_interrupts {reader : ReaderEnd} {call : StreamerCall}
    (hstep : reader.step = .initialized) (hinterrupt : call.interrupt = true) (seen : WriterSeen)
    (n : ℤ) : (setup.deviceRead reader call seen n).GivesUp := by
  unfold StreamerSetup.deviceRead
  by_cases hconnected : call.connected = true
  · rw [if_pos (Or.inl hconnected)]
    dsimp only
    rw [hstep]
    dsimp only
    split_ifs
    · exact ⟨rfl, rfl⟩
    · unfold StreamerSetup.readData
      rw [if_pos (Or.inr hinterrupt)]
      exact ⟨rfl, rfl⟩
  · rw [if_neg (by simp [hconnected, hstep])]
    exact ⟨rfl, rfl⟩

/-- A read which returns that the transfer is completed reads nothing. -/
theorem StreamerSetup.deviceRead_completed {reader : ReaderEnd} {call : StreamerCall}
    {seen : WriterSeen} {n : ℤ}
    (hstep : (setup.deviceRead reader call seen n).reader.step = .allCompleted) :
    (setup.deviceRead reader call seen n).moved = [] := by
  have hdata : ∀ reader : ReaderEnd, reader.step = .transferData →
      (setup.readData reader call seen n fun reader => reader.to .transferDone).reader.step ≠
        .allCompleted := by
    intro reader hreader
    unfold StreamerSetup.readData
    by_cases hstop : (seen.signal ≠ .running ∧ seen.signal ≠ .completed) ∨ call.interrupt
    · rw [if_pos hstop]
      simp [ReaderEnd.to]
    rw [if_neg hstop]
    by_cases hhead : seen.head < 0 ∨ setup.bufSz ≤ seen.head
    · rw [if_pos hhead]
      simp [ReaderEnd.to]
    rw [if_neg hhead]
    cases streamerReadInternal seen.view setup.bufSz (osInt n) seen.head reader.tail
      seen.bufferConnected with
    | none => simp [ReaderEnd.to]
    | some ring =>
        dsimp only
        split_ifs <;> simp [ReaderEnd.to, ReaderEnd.set, hreader]
  revert hstep
  unfold StreamerSetup.deviceRead
  generalize (if call.connected ∨ reader.step = .failedAndIdleSet then reader
    else (reader.setSignal .idle).to .failedAndIdleSet) = opened
  dsimp only
  cases hcase : opened.step with
  | initialized =>
      dsimp only
      split_ifs
      · exact fun _ => rfl
      · exact fun hstep => absurd hstep (hdata _ rfl)
  | transferData => exact fun hstep => absurd hstep (hdata _ hcase)
  | failed2 =>
      dsimp only
      split_ifs <;> exact fun _ => rfl
  | _ => exact fun _ => rfl

end Reads

/-! ## Reads with their counts -/

section Counted

variable {reader : ReaderEnd} {c : StreamerReadCall} {negative : ℕ → ℕ}

/-- A read of data which does not peek is one from a connected buffer, or it has lost the
buffer and fails. -/
theorem StreamerSetup.readDataCounted_or (hpeek : c.peek = false) (done : ReaderEnd → ReaderEnd) :
    setup.readDataCounted reader c done =
        (setup.readData reader c.call c.connectedSeen c.n done).counted ∨
      (setup.readDataCounted reader c done).nRead = -1 ∧
        (setup.readDataCounted reader c done).reader.step = .failed := by
  by_cases hconnected : c.SeesData setup →
      ConnectedFor setup.bufSz (osInt c.n) c.seen.head reader.tail c.seen.bufferConnected
  · have hplain : c.Plain setup reader.tail :=
      ⟨hconnected, fun _ htrue => by simp [hpeek] at htrue⟩
    exact .inl (hplain.readData done)
  · right
    obtain ⟨⟨hsignal, hinterrupt, hhead, hlt⟩, hlost⟩ := Classical.not_imp.mp hconnected
    unfold StreamerSetup.readDataCounted
    rw [if_neg (by simp only [hinterrupt]; tauto), if_neg (by omega)]
    rcases streamerReadInternal_cases c.seen.view setup.bufSz (osInt c.n) c.seen.head
        reader.tail c.seen.bufferConnected with ⟨-, hnone⟩ | ⟨ring, -, hfor, -⟩
    · rw [hnone]
      exact ⟨rfl, rfl⟩
    · exact absurd hfor hlost

theorem StreamerSetup.deviceReadCounted_or (setup : StreamerSetup) (reader : ReaderEnd)
    (hpeek : c.peek = false) :
    setup.deviceReadCounted reader c =
        (setup.deviceRead reader c.call c.connectedSeen c.n).counted ∨
      (setup.deviceReadCounted reader c).nRead = -1 ∧
        (setup.deviceReadCounted reader c).reader.step = .failed := by
  unfold StreamerSetup.deviceReadCounted StreamerSetup.deviceRead
  generalize (if c.call.connected ∨ reader.step = .failedAndIdleSet then reader
    else (reader.setSignal .idle).to .failedAndIdleSet) = opened
  dsimp only
  cases opened.step with
  | initialized =>
      dsimp only
      by_cases hsignal : c.seen.signal ≠ .running ∧ c.seen.signal ≠ .completed
      · rw [if_pos hsignal]
        rw [if_pos (show c.connectedSeen.signal ≠ .running ∧ c.connectedSeen.signal ≠ .completed
          from hsignal)]
        exact .inl rfl
      · rw [if_neg hsignal]
        rw [if_neg (show ¬(c.connectedSeen.signal ≠ .running ∧
          c.connectedSeen.signal ≠ .completed) from hsignal)]
        exact readDataCounted_or hpeek _
  | transferData => exact readDataCounted_or hpeek _
  | failed2 =>
      left
      simp only [apply_ite ReaderResult.counted]
      rfl
  | _ => exact .inl rfl

theorem StreamerSetup.controllerReadCounted_or (setup : StreamerSetup) (reader : ReaderEnd)
    (hpeek : c.peek = false) :
    setup.controllerReadCounted reader c =
        (setup.controllerRead reader c.call c.connectedSeen c.n).counted ∨
      (setup.controllerReadCounted reader c).nRead = -1 ∧
        (setup.controllerReadCounted reader c).reader.step = .failed := by
  unfold StreamerSetup.controllerReadCounted StreamerSetup.controllerRead
  generalize (if c.call.connected ∨ reader.step = .failedAndIdleSet then reader
    else (reader.setSignal .idle).to .failedAndIdleSet) = opened
  dsimp only
  cases opened.step with
  | transferData => exact readDataCounted_or hpeek _
  | initialized2 =>
      left
      simp only [apply_ite ReaderResult.counted]
      rfl
  | transferDone2 =>
      left
      simp only [apply_ite ReaderResult.counted]
      rfl
  | failed2 =>
      left
      simp only [apply_ite ReaderResult.counted]
      rfl
  | _ => exact .inl rfl

theorem Transfer.afterCounted_eq {result : ReadOutcome × StreamerStatus}
    (hcount : result.1.nRead = result.1.moved.length) :
    t.afterCounted k result = t.afterRead k (result.1.reader, result.1.moved, result.2) := by
  have hconsumed : result.1.consumed false = result.1.moved :=
    if_neg (by simp [hcount])
  rw [Transfer.afterCounted, hconsumed]

theorem StreamerSetup.counted_check (read : ReaderResult) (status : StreamerStatus) (cs : ℕ) :
    let result : ReadOutcome × StreamerStatus :=
      if setup.disableChecksum then (read.counted, status)
      else
        let checksum := setup.checksumOf negative read.counted.moved read.counted.nRead
          read.counted.reader.checksum
        ({ read.counted with reader := { read.counted.reader with checksum := checksum } },
          if status = .completed ∧ checksum ≠ cs then .checksumError else status)
    result.1.nRead = result.1.moved.length ∧
      (result.1.reader, result.1.moved, result.2) = setup.checkRead read status cs := by
  unfold StreamerSetup.checkRead
  by_cases hdisabled : setup.disableChecksum = true
  · rw [if_pos hdisabled, if_pos hdisabled]
    exact ⟨rfl, rfl⟩
  · rw [if_neg hdisabled, if_neg hdisabled]
    simp only [ReaderResult.counted, StreamerSetup.checksumOf_length, and_self]

theorem StreamerSetup.lost_check {outcome : ReadOutcome} (hcount : outcome.nRead = -1)
    (hstep : outcome.reader.step = .failed) {status : StreamerStatus}
    (hstatus : status = .success) (cs : ℕ) :
    let result : ReadOutcome × StreamerStatus :=
      if setup.disableChecksum then (outcome, status)
      else
        let checksum := setup.checksumOf negative outcome.moved outcome.nRead
          outcome.reader.checksum
        ({ outcome with reader := { outcome.reader with checksum := checksum } },
          if status = .completed ∧ checksum ≠ cs then .checksumError else status)
    result.1.nRead = -1 ∧ result.1.reader.step = .failed ∧ result.2 = .success := by
  subst hstatus
  by_cases hdisabled : setup.disableChecksum = true
  · rw [if_pos hdisabled]
    exact ⟨hcount, hstep, rfl⟩
  · rw [if_neg hdisabled]
    exact ⟨hcount, hstep, rfl⟩

/-- A read with its count is one from a connected buffer, or it has lost the buffer. -/
def ReadOutcome.IsRead (setup : StreamerSetup) (read : ReaderResult) (status : StreamerStatus)
    (cs : ℕ) (result : ReadOutcome × StreamerStatus) : Prop :=
  result.1.nRead = result.1.moved.length ∧
      (result.1.reader, result.1.moved, result.2) = setup.checkRead read status cs ∨
    result.1.nRead = -1 ∧ result.1.reader.step = .failed ∧ result.2 = .success

theorem Transfer.losesBuffer {result : ReadOutcome × StreamerStatus}
    (hstep : result.1.reader.step = .failed) (hstatus : result.2 = .success) :
    (t.afterCounted k result).Aborted where
  lastRead := by simp [Transfer.afterCounted, Transfer.afterRead, hstatus]
  gaveUp := by simp [Transfer.afterCounted, Transfer.afterRead, hstep, StreamerStep.gaveUp]

theorem ReadOutcome.IsRead.afterCounted {read : ReaderResult} {status : StreamerStatus} {cs : ℕ}
    {result : ReadOutcome × StreamerStatus} (h : ReadOutcome.IsRead setup read status cs result)
    (t : Transfer) (k : ℕ) :
    t.afterCounted k result = t.afterRead k (setup.checkRead read status cs) ∨
      (t.afterCounted k result).Aborted := by
  rcases h with ⟨hcount, hsame⟩ | ⟨-, hstep, hstatus⟩
  · left
    rw [Transfer.afterCounted_eq hcount, hsame]
  · exact .inr (Transfer.losesBuffer hstep hstatus)

theorem StreamerSetup.readCounted_device (setup : StreamerSetup) (negative : ℕ → ℕ)
    (reader : ReaderEnd) (call : StreamerCall) (seen : WriterSeen) (cs : ℕ) :
    let read := setup.deviceRead reader call { seen with bufferConnected := (true, true) }
      setup.chunkSz
    ReadOutcome.IsRead setup read (deviceStatus read.reader.step) cs
      (setup.readCounted negative .toDevice reader (setup.chunkRead call seen cs)) := by
  dsimp only
  unfold StreamerSetup.readCounted ReadOutcome.IsRead
  rw [if_neg (by simp [StreamerSetup.chunkRead])]
  dsimp only
  rcases setup.deviceReadCounted_or reader (c := setup.chunkRead call seen cs) rfl with
    hsame | ⟨hcount, hstep⟩
  · left
    have hcounted : setup.deviceReadCounted reader (setup.chunkRead call seen cs) =
      (setup.deviceRead reader call { seen with bufferConnected := (true, true) }
        setup.chunkSz).counted := hsame
    rw [hcounted]
    exact StreamerSetup.counted_check _ _ _
  · right
    exact StreamerSetup.lost_check hcount hstep (by rw [hstep]; rfl) _

theorem StreamerSetup.readCounted_controller (setup : StreamerSetup) (negative : ℕ → ℕ)
    (reader : ReaderEnd) (call : StreamerCall) (seen : WriterSeen) (cs : ℕ) :
    let read := setup.controllerRead reader call { seen with bufferConnected := (true, true) }
      setup.chunkSz
    ReadOutcome.IsRead setup read (controllerReadStatus read.reader.step) cs
      (setup.readCounted negative .fromDevice reader (setup.chunkRead call seen cs)) := by
  dsimp only
  unfold StreamerSetup.readCounted ReadOutcome.IsRead
  rw [if_neg (by simp [StreamerSetup.chunkRead])]
  dsimp only
  rcases setup.controllerReadCounted_or reader (c := setup.chunkRead call seen cs) rfl with
    hsame | ⟨hcount, hstep⟩
  · left
    have hcounted : setup.controllerReadCounted reader (setup.chunkRead call seen cs) =
      (setup.controllerRead reader call { seen with bufferConnected := (true, true) }
        setup.chunkSz).counted := hsame
    rw [hcounted]
    exact StreamerSetup.counted_check _ _ _
  · right
    exact StreamerSetup.lost_check hcount hstep (by rw [hstep]; rfl) _
end Counted

/-! ## A controller which has told that all is written -/

/-- All has been written, and the other end told so. -/
def WriterEnd.HasTold (writer : WriterEnd) : Prop :=
  writer.step = .transferDone ∨ writer.step = .allCompleted

/-- The writing end has told that all is written, and since then at most that it is
idle, as it has timed out or lost the connection. -/
structure WriterEnd.Lingers (writer told : WriterEnd) : Prop where
  step : writer.HasTold ∨ writer.step = .failedAndIdleSet
  hasTold : told.HasTold
  signals : { writer.signals with signal := .idle } = { told.signals with signal := .idle }
  published : ∃ idle : List WriterSignals, writer.published = told.published ++ idle ∧
    ∀ signals ∈ idle, signals = { told.signals with signal := .idle }

theorem WriterEnd.HasTold.lingers {told : WriterEnd} (h : told.HasTold) : told.Lingers told where
  step := .inl h
  hasTold := h
  signals := rfl
  published := ⟨[], by simp, by simp⟩

theorem WriterEnd.Lingers.idle {writer told : WriterEnd} (h : writer.Lingers told)
    {step : StreamerStep} (hstep : step = .allCompleted ∨ step = .failedAndIdleSet) :
    ((writer.setSignal .idle).to step).Lingers told := by
  obtain ⟨idle, hpublished, hidle⟩ := h.published
  refine ⟨?_, h.hasTold, h.signals, idle ++ [{ writer.signals with signal := .idle }], ?_, ?_⟩
  · rcases hstep with rfl | rfl
    · exact .inl (.inr rfl)
    · exact .inr rfl
  · simp [WriterEnd.setSignal, WriterEnd.set, WriterEnd.to, hpublished]
  · intro signals hsignals
    rcases List.mem_append.mp hsignals with hmem | hmem
    · exact hidle signals hmem
    · rw [List.mem_singleton.mp hmem]
      exact h.signals

/-- Such a controller writes nothing more, however it is disturbed. -/
theorem WriterEnd.Lingers.controllerWrite {writer told : WriterEnd} (h : writer.Lingers told)
    (setup : StreamerSetup) (call : StreamerCall) (state : StreamerState) (tail : ℤ)
    (data : Option (List UInt8)) :
    let result := setup.controllerWrite writer call state tail data
    result.moved = [] ∧ result.writer.Lingers told := by
  unfold StreamerSetup.controllerWrite
  by_cases hconnected : call.connected ∨ writer.step = .failedAndIdleSet
  · rw [if_pos hconnected]
    dsimp only
    rcases h.step with (hstep | hstep) | hstep <;> rw [hstep] <;> dsimp only
    · split_ifs
      · exact ⟨rfl, h⟩
      · exact ⟨rfl, h.idle (.inl rfl)⟩
    · exact ⟨rfl, h⟩
    · exact ⟨rfl, h⟩
  · rw [if_neg hconnected]
    exact ⟨rfl, h.idle (.inr rfl)⟩

/-- The transfer as if its writing end had not become idle. -/
def Transfer.asTold (t : Transfer) (told : WriterEnd) (seen : ℕ) : Transfer :=
  { t with writer := told, seenByReader := seen }

structure Transfer.Lingers (t : Transfer) (told : WriterEnd) (seen : ℕ) : Prop where
  writer : t.writer = told ∨ t.writer.Lingers told
  last : told.published.getLast? = some told.signals
  seenLt : seen < told.published.length
  seenLe : seen ≤ t.seenByReader

/-- No end has given up before all was written. -/
def Transfer.GoesOn (setup : StreamerSetup) (t : Transfer) (told : WriterEnd) : Prop :=
  ∃ seen, t.Lingers told seen ∧
    ((t.asTold told seen).Active setup ∨ (t.asTold told seen).Drained setup)

section Lingering

variable {told : WriterEnd} {seen : ℕ} {first second third : WriterSignals} {view : Mem}

theorem Transfer.Lingers.cases (h : t.Lingers told seen)
    (hat : t.writer.published[k]? = some first) :
    told.published[k]? = some first ∨
      told.published.length ≤ k ∧ first = { told.signals with signal := .idle } := by
  rcases h.writer with hsame | hlingers
  · exact .inl (hsame ▸ hat)
  · obtain ⟨idle, hpublished, hidle⟩ := hlingers.published
    rw [hpublished, List.getElem?_append] at hat
    split_ifs at hat with hlt
    · exact .inl hat
    · exact .inr ⟨not_lt.mp hlt, hidle first (List.mem_of_getElem? hat)⟩

/-- What is seen besides the signal has been published before. -/
theorem Transfer.Lingers.sees (h : t.Lingers told seen) {j : ℕ} (hj : j < told.published.length)
    (hle : j ≤ k) (hat : t.writer.published[k]? = some first) :
    ∃ k' signals, j ≤ k' ∧ k' ≤ k ∧ told.published[k']? = some signals ∧
      first.head = signals.head ∧ first.buffer = signals.buffer ∧ first.cs = signals.cs := by
  rcases h.cases hat with hbefore | ⟨hlater, rfl⟩
  · exact ⟨k, first, hle, le_refl k, hbefore, rfl, rfl, rfl⟩
  · have hlast := h.last
    rw [List.getLast?_eq_getElem?] at hlast
    exact ⟨told.published.length - 1, told.signals, by omega, by omega, hlast, rfl, rfl, rfl⟩

theorem Transfer.Lingers.views (h : t.Lingers told seen) {j : ℕ}
    (hj : j < told.published.length) (hle : j ≤ k) (hview : t.Views setup k view) :
    (t.asTold told seen).Views setup j view := by
  intro i hi
  obtain ⟨l, signals, hl, hat, hcell⟩ := hview i hi
  obtain ⟨l', signals', hl', -, hat', -, hbuffer, -⟩ := h.sees hj (hle.trans hl) hat
  exact ⟨l', signals', hl', hat', by rw [hcell, hbuffer]⟩

theorem StreamerSetup.deviceRead_idle {reader : ReaderEnd}
    (hstep : reader.step = .initialized ∨ reader.step = .transferData) (call : StreamerCall)
    {got : WriterSeen} (hidle : got.signal = .idle) (n : ℤ) :
    (setup.deviceRead reader call got n).GivesUp := by
  have hstop : got.signal ≠ .running ∧ got.signal ≠ .completed := by simp [hidle]
  unfold StreamerSetup.deviceRead
  by_cases hconnected : call.connected ∨ reader.step = .failedAndIdleSet
  · rw [if_pos hconnected]
    dsimp only
    rcases hstep with hstep | hstep <;> rw [hstep] <;> dsimp only
    · rw [if_pos hstop]
      exact ⟨rfl, rfl⟩
    · unfold StreamerSetup.readData
      rw [if_pos (Or.inl hstop)]
      exact ⟨rfl, rfl⟩
  · rw [if_neg hconnected]
    exact ⟨rfl, rfl⟩

theorem Transfer.Active.goesOn (h : t.Active setup) : t.GoesOn setup t.writer := by
  obtain ⟨published, hseen, -⟩ := h.ring.seenHead
  have hlt : t.seenByReader < t.writer.published.length := by
    have hlt := (List.getElem?_eq_some_iff.mp hseen).1
    simpa [Transfer.ring] using hlt
  refine ⟨t.seenByReader, ⟨.inl rfl, ?_, hlt, le_refl _⟩, .inl h⟩
  rw [List.getLast?_eq_getElem?]
  obtain ⟨signals, hat⟩ : ∃ signals,
      t.writer.published[t.writer.published.length - 1]? = some signals :=
    ⟨_, List.getElem?_eq_getElem (by omega)⟩
  rw [hat, h.writerLast _ _ hat (by omega)]

theorem Transfer.GoesOn.seeWriter (h : t.GoesOn setup told)
    (hstep : t.reader.step = .initialized) (hseen : t.seenByReader ≤ k)
    (hcmd : t.writer.published[k]? = some first) (hrunning : first.signal = .running) :
    Transfer.GoesOn setup { t with seenByReader := k } told ∧ 1 ≤ k := by
  obtain ⟨seen, hlingers, hphase⟩ := h
  have hactive : (t.asTold told seen).Active setup := by
    refine hphase.resolve_right fun hdrained => ?_
    have hreader : t.reader.step = .transferDone ∨ t.reader.step = .transferDone2 ∨
        t.reader.step = .allCompleted := hdrained.readerStep
    simp [hstep] at hreader
  have hat : told.published[k]? = some first := by
    rcases hlingers.cases hcmd with hbefore | ⟨-, rfl⟩
    · exact hbefore
    · simp at hrunning
  refine ⟨⟨k, ⟨hlingers.writer, hlingers.last, (List.getElem?_eq_some_iff.mp hat).1,
    le_refl k⟩, .inl ?_⟩, hactive.started_of_writer hat (by simp [hrunning])⟩
  exact hactive.seeWriter (hlingers.seenLe.trans hseen) hat

theorem Transfer.GoesOn.deviceReads (h : t.GoesOn setup told) (hsz : setup.bufSz ≤ 0x80000000)
    (hseen : t.seenByReader ≤ k) (horder : k ≤ k₁) (horder' : k₁ ≤ k₂)
    (hfirst : t.writer.published[k]? = some first)
    (hsecond : t.writer.published[k₁]? = some second)
    (hthird : t.writer.published[k₂]? = some third) (hview : t.Views setup k₁ view)
    (hown : t.reader.step ≠ .initialized2 ∧ t.reader.step ≠ .transferDone2) (hstarted : 1 ≤ k)
    (call : StreamerCall) :
    let result := setup.deviceRead t.reader call
      ⟨first.signal, second.head, view, (true, true)⟩ setup.chunkSz
    let after := t.afterRead k₂
      (setup.checkRead result (deviceStatus result.reader.step) third.cs)
    after.GoesOn setup told ∧ after.reader.step ≠ .initialized2 ∧
        after.reader.step ≠ .transferDone2 ∨ after.Aborted := by
  dsimp only
  obtain ⟨seen, hlingers, hphase⟩ := h
  have hseenK : seen ≤ k := hlingers.seenLe.trans hseen
  -- The reading end and what the call returns are the same for the controller as it was.
  have hgoesOn : ∀ (j₂ : ℕ) (signals : WriterSignals) (cs : ℕ) (result : ReaderResult), j₂ ≤ k₂ →
      told.published[j₂]? = some signals →
      let read := setup.checkRead result (deviceStatus result.reader.step) cs
      let after := (t.asTold told seen).afterRead j₂ read
      (after.Active setup ∨ after.Drained setup) ∧ after.reader.step ≠ .initialized2 ∧
          after.reader.step ≠ .transferDone2 →
      (t.afterRead k₂ read).GoesOn setup told ∧
        (t.afterRead k₂ read).reader.step ≠ .initialized2 ∧
          (t.afterRead k₂ read).reader.step ≠ .transferDone2 := by
    intro j₂ signals cs result hle hat read after hafter
    exact ⟨⟨j₂, ⟨hlingers.writer, hlingers.last, (List.getElem?_eq_some_iff.mp hat).1, hle⟩,
      hafter.1⟩, hafter.2⟩
  rcases hphase with hactive | hdrained
  · rcases hlingers.cases hfirst with hbefore | ⟨-, hidle⟩
    · have hk := (List.getElem?_eq_some_iff.mp hbefore).1
      obtain ⟨j₁, signals₁, hkj₁, hj₁, hat₁, hhead, -, -⟩ := hlingers.sees hk horder hsecond
      have hlt₁ := (List.getElem?_eq_some_iff.mp hat₁).1
      obtain ⟨j₂, signals₂, hj₁₂, hj₂, hat₂, -, -, hcs⟩ :=
        hlingers.sees hlt₁ (hj₁.trans horder') hthird
      have hreads := hactive.deviceReads hsz hseenK hkj₁ hj₁₂ hbefore hat₁ hat₂
        (hlingers.views hlt₁ hj₁ hview) hown.1 hstarted call
      dsimp only at hreads
      rw [← hhead, ← hcs] at hreads
      rcases hreads with hafter | haborted
      · exact .inl (hgoesOn j₂ signals₂ _ _ hj₂ hat₂ hafter)
      · refine .inr ⟨haborted.lastRead, haborted.gaveUp.imp_right fun hwriter => ?_⟩
        have hstep : told.step.gaveUp = true := hwriter.1
        rcases hactive.writerStep with hcase | hcase | ⟨hcase | hcase, -⟩ <;>
          simp [show told.step = _ from hcase, StreamerStep.gaveUp] at hstep
    · have hstep : t.reader.step = .initialized ∨ t.reader.step = .transferData := by
        rcases hactive.readerStep with hcase | hcase | ⟨hcase, -⟩
        · exact .inl hcase
        · exact absurd hcase hown.1
        · exact .inr hcase
      have hgot : WriterSeen.signal ⟨first.signal, second.head, view, (true, true)⟩ = .idle := by
        simp [hidle]
      have hgivesUp := setup.deviceRead_idle hstep call hgot setup.chunkSz
      exact .inr (Transfer.readerGivesUp hgivesUp (deviceStatus_gaveUp (.inl hgivesUp.1)))
  · obtain ⟨j₂, signals₂, hj₂, hle₂, hat₂, -, -, hcs⟩ :=
      hlingers.sees hlingers.seenLt (hseenK.trans (horder.trans horder')) hthird
    have hreads := hdrained.deviceReads hj₂ hat₂ hown.2 call
      ⟨first.signal, second.head, view, (true, true)⟩ setup.chunkSz
    dsimp only at hreads
    rw [← hcs] at hreads
    rcases hreads with ⟨hafter, hstep⟩ | haborted
    · exact .inl (hgoesOn j₂ signals₂ _ _ hle₂ hat₂ ⟨.inr hafter, hstep⟩)
    · refine .inr ⟨haborted.lastRead, haborted.gaveUp.imp_right fun hwriter => ?_⟩
      have hstep : told.step.gaveUp = true := hwriter.1
      rcases hdrained.writerStep with hcase | hcase <;>
        simp [show told.step = _ from hcase, StreamerStep.gaveUp] at hstep

/-- A controller which has told that all is written leaves the transfer as it is. -/
theorem Transfer.GoesOn.controllerWaits (h : t.GoesOn setup told) (htold : told.HasTold)
    {tail : ReaderSignals} (hseen : t.seenByWriter ≤ k)
    (htail : t.reader.published[k]? = some tail) (call : StreamerCall) (state : StreamerState)
    (data : Option (List UInt8)) :
    let result := setup.controllerWrite t.writer call state tail.tail data
    result.moved = [] ∧ (t.afterWrite k result).GoesOn setup told := by
  dsimp only
  obtain ⟨seen, hlingers, hphase⟩ := h
  have hwriter : t.writer.Lingers told := by
    rcases hlingers.writer with hsame | hwriter
    · rw [hsame]
      exact htold.lingers
    · exact hwriter
  obtain ⟨hmoved, hnext⟩ := hwriter.controllerWrite setup call state tail.tail data
  refine ⟨hmoved, seen, ⟨.inr hnext, hlingers.last, hlingers.seenLt, hlingers.seenLe⟩, ?_⟩
  unfold Transfer.afterWrite Transfer.asTold
  rw [hmoved, List.append_nil]
  exact hphase.imp (·.seeSignals hseen htail) (·.seeSignals)

theorem Transfer.GoesOn.controllerWrites (h : t.GoesOn setup told) (htold : ¬told.HasTold)
    {state tail : ReaderSignals} (hseen : t.seenByWriter ≤ k) (horder : k ≤ k₁)
    (hstate : t.reader.published[k]? = some state)
    (htail : t.reader.published[k₁]? = some tail) (call : StreamerCall)
    (data : Option (List UInt8)) :
    let result := setup.controllerWrite t.writer call state.signal tail.tail data
    (t.afterWrite k₁ result).Aborted ∨
      (t.afterWrite k₁ result).GoesOn setup result.writer ∧ result.moved <+: data.getD [] ∧
        (result.writer.HasTold → data = none) := by
  dsimp only
  obtain ⟨seen, hlingers, hphase⟩ := h
  have hsame : t.writer = told :=
    hlingers.writer.resolve_right fun hwriter => htold hwriter.hasTold
  have hactive : (t.asTold told seen).Active setup :=
    hphase.resolve_right fun hdrained => htold hdrained.writerStep
  have hunfinished : told.step.unfinished := by
    rcases hactive.writerStep with hcase | hcase | ⟨hcase | hcase, -⟩
    · simp [show told.step = _ from hcase, StreamerStep.unfinished]
    · simp [show told.step = _ from hcase, StreamerStep.unfinished]
    · simp [show told.step = _ from hcase, StreamerStep.unfinished]
    · exact absurd (.inl hcase) htold
  have hnever : told.NeverCompleted := hactive.neverCompleted fun hdone => htold (.inl hdone)
  rw [hsame]
  rcases setup.controllerWrite_or call state.signal tail.tail data hnever hunfinished with
    hundisturbed | hgivesUp
  · right
    rw [hundisturbed]
    obtain ⟨hmoved, hdata⟩ := hactive.controllerWrite_moved (hseen.trans horder) htail
      hunfinished state.signal data
    have hafter := @Transfer.Active.controllerWrite _ _ _ _ _ _ hactive hseen horder hstate htail
      data
    obtain ⟨seen', hlingers', hphase'⟩ := hafter.goesOn
    exact ⟨⟨seen', ⟨.inl rfl, hlingers'.last, hlingers'.seenLt,
      hlingers'.seenLe.trans hlingers.seenLe⟩, hphase'⟩, hmoved, hdata⟩
  · left
    have haborted := hactive.writerGivesUp (k := k₁) hgivesUp
    exact ⟨haborted.lastRead, haborted.gaveUp⟩

/-- A read which has not returned success has returned that all has been read. -/
theorem Transfer.GoesOn.lastRead (h : t.GoesOn setup told) :
    t.lastRead = .success ∨
      t.lastRead = .completed ∧ told.HasTold ∧ t.read = t.written := by
  obtain ⟨seen, -, hactive | hdrained⟩ := h
  · exact .inl hactive.lastRead
  · exact hdrained.lastRead.imp_right fun hcompleted =>
      ⟨hcompleted, hdrained.writerStep, hdrained.read⟩

end Lingering

end Iocom
