import Iocom.StreamerCompletion
import Iocom.StreamCounts

/-!
# Checksums of streams

The checksum of a reading end is that of the bytes which were taken out of the ring
buffer, as long as a peek finds nothing there.  It is then the checksum of the
writing end when all has been read.
-/

namespace Iocom

variable {setup : StreamerSetup} {negative : ℕ → ℕ} {direction : StreamDirection}

/-! ## Runs of one end -/

/-- The bytes which a read takes out of the ring buffer: none when it only peeks
or fails. -/
def ReadOutcome.consumed (outcome : ReadOutcome) (peek : Bool) : List UInt8 :=
  if peek ∨ outcome.nRead < 0 then [] else outcome.moved

def StreamerReadCall.PeeksNothing (setup : StreamerSetup) (direction : StreamDirection)
    (reader : ReaderEnd) (c : StreamerReadCall) : Prop :=
  setup.disableChecksum = false → c.peek = true → c.Reaches setup direction reader.step →
    ¬TakesToEnd setup.bufSz (osInt c.n) c.seen.head reader.tail ∧
      ¬TakesToHead setup.bufSz (osInt c.n) c.seen.head reader.tail

/-- A reading end and the bytes it has consumed. -/
structure StreamReading where
  reader : ReaderEnd
  consumed : List UInt8

/-- The reading end after `ioc_streamer_read`. -/
def StreamReading.call (setup : StreamerSetup) (negative : ℕ → ℕ) (direction : StreamDirection)
    (r : StreamReading) (c : StreamerReadCall) : StreamReading :=
  let outcome := (setup.readCounted negative direction r.reader c).1
  ⟨outcome.reader, r.consumed ++ outcome.consumed c.peek⟩

def StreamReadingStart (setup : StreamerSetup) (r : StreamReading) : Prop :=
  r.reader.checksum = setup.checksumInit ∧ r.consumed = []

/-- Any call of `ioc_streamer_read`. -/
def StreamReadingStep (setup : StreamerSetup) (negative : ℕ → ℕ) (direction : StreamDirection)
    (r next : StreamReading) : Prop :=
  ∃ c : StreamerReadCall, 0 ≤ c.n ∧ next = r.call setup negative direction c

/-- A call of `ioc_streamer_read` with which the ring buffer is connected, and which
peeks at nothing. -/
def AllowedStreamReading (setup : StreamerSetup) (negative : ℕ → ℕ)
    (direction : StreamDirection) (r next : StreamReading) : Prop :=
  ∃ c : StreamerReadCall, 0 ≤ c.n ∧ c.Connected setup direction r.reader ∧
    c.PeeksNothing setup direction r.reader ∧ next = r.call setup negative direction c

/-- A writing end and the bytes it has stored. -/
structure StreamWriting where
  writer : WriterEnd
  written : List UInt8

/-- The writing end after `ioc_streamer_write`. -/
def StreamWriting.call (setup : StreamerSetup) (direction : StreamDirection) (w : StreamWriting)
    (c : StreamerWriteCall) : StreamWriting :=
  let outcome := (setup.writeCounted direction w.writer c).1
  ⟨outcome.writer, w.written ++ outcome.moved⟩

def StreamWritingStart (setup : StreamerSetup) (w : StreamWriting) : Prop :=
  w.writer.checksum = setup.checksumInit ∧ w.written = []

/-- A call of `ioc_streamer_write` with which the memory block is there. -/
def AllowedStreamWriting (setup : StreamerSetup) (direction : StreamDirection)
    (w next : StreamWriting) : Prop :=
  ∃ c : StreamerWriteCall, c.Stored setup direction w.writer ∧
    next = w.call setup direction c

section Ends

theorem StreamerSetup.SumIs.nothing {bytes : List UInt8} {checksum : ℕ}
    (h : setup.SumIs bytes checksum) : setup.SumIs (bytes ++ []) checksum := by
  simpa using h

theorem ReadCounts.consumed {reader : ReaderEnd} {c : StreamerReadCall} {outcome : ReadOutcome}
    {status : StreamerStatus} (h : ReadCounts setup direction reader c outcome status)
    (henabled : setup.disableChecksum = false) (hcount : 0 ≤ outcome.nRead)
    (hconnected : c.Connected setup direction reader)
    (hpeeks : c.PeeksNothing setup direction reader) :
    outcome.consumed c.peek = outcome.moved := by
  unfold ReadOutcome.consumed
  split_ifs with hnothing
  · have hpeek : c.peek = true := hnothing.resolve_right (by omega)
    rcases h.counts with ⟨-, -, hnone⟩ | ⟨hreaches, -, -, hmoved⟩
    · exact hnone.symm
    · have hempty := hpeeks henabled hpeek hreaches
      rcases streamerReadInternal_cases c.seen.view setup.bufSz (osInt c.n) c.seen.head
          reader.tail c.seen.bufferConnected with
        ⟨hlost, -⟩ | ⟨ring, -, -, hring, hsame, hzero⟩
      · exact absurd (hconnected hreaches) hlost
      · have hnbytes := hring.nbytes
        rw [hzero.mpr hempty] at hnbytes
        rw [hmoved, hsame]
        exact (List.eq_nil_of_length_eq_zero (by omega)).symm
  · rfl

theorem StreamerSetup.checksumOf_length (negative : ℕ → ℕ) (bytes : List UInt8)
    (checksum : ℕ) :
    setup.checksumOf negative bytes bytes.length checksum = setup.checksum bytes checksum := by
  unfold StreamerSetup.checksumOf
  rw [if_neg (by omega), List.take_of_length_le (by omega)]

theorem StreamReading.call_sum {r : StreamReading} {c : StreamerReadCall}
    (h : setup.SumIs r.consumed r.reader.checksum) (hn : 0 ≤ c.n)
    (hconnected : c.Connected setup direction r.reader)
    (hpeeks : c.PeeksNothing setup direction r.reader) :
    setup.SumIs (r.call setup negative direction c).consumed
      (r.call setup negative direction c).reader.checksum := by
  intro henabled
  have hright := (setup.readCounted_isRight_iff negative direction r.reader c hn).mpr hconnected
  unfold StreamReading.call
  dsimp only
  by_cases hgiven : c.given = true
  · obtain ⟨outcome, status, hcounts, heq⟩ :=
      @StreamerSetup.readCounted_eq setup direction negative r.reader c hgiven hn
    rw [heq] at hright ⊢
    simp only [henabled, Bool.false_eq_true, if_false] at hright ⊢
    obtain ⟨hlo, -, hlength, -⟩ := hright
    have hconsumed := hcounts.consumed henabled hlo hconnected hpeeks
    change setup.checksumOf negative outcome.moved outcome.nRead r.reader.checksum =
      setup.checksum (r.consumed ++ outcome.consumed c.peek) setup.checksumInit
    rw [hconsumed, hlength, StreamerSetup.checksumOf_length]
    exact h.append outcome.moved henabled
  · have hfails : setup.readCounted negative direction r.reader c =
        (⟨r.reader, [], 0⟩, .failed) := by
      unfold StreamerSetup.readCounted
      rw [if_pos (Or.inl (by simpa using hgiven))]
    rw [hfails]
    simpa [ReadOutcome.consumed] using h henabled

theorem StreamWriting.call_sum {w : StreamWriting} {c : StreamerWriteCall}
    (h : setup.SumIs w.written w.writer.checksum) (hstored : c.Stored setup direction w.writer) :
    setup.SumIs (w.call setup direction c).written
      (w.call setup direction c).writer.checksum := by
  unfold StreamWriting.call
  dsimp only
  by_cases hgiven : c.given = true
  · rcases (@StreamerSetup.writeCounted_counts setup direction w.writer c hgiven).counts with
      ⟨-, -, hnothing, hsame⟩ | ⟨hreaches, -, hcount, hmoved, hsum⟩
    · rw [hnothing, hsame]
      exact h.nothing
    · intro henabled
      have htaken := StoredFor.moved w.writer.signals.buffer
        (storedFor_take.mpr (hstored hreaches))
      obtain ⟨hlo, hhi, -⟩ := streamerStoreInternal_counts w.writer.signals.buffer
        (c.bytes.take (osInt c.bytes.length).toNat) setup.bufSz w.writer.head c.tail c.stored
      rw [hsum, hmoved, if_neg (by simp [henabled]), htaken, List.take_take, Nat.min_eq_left]
      · exact h.append _ henabled
      · rw [List.length_take] at hhi
        omega
  · have hfails : setup.writeCounted direction w.writer c = (⟨w.writer, [], 0⟩, .failed) := by
      unfold StreamerSetup.writeCounted
      rw [if_pos (by simpa using hgiven)]
    rw [hfails]
    exact h.nothing

theorem reading_sum {r : StreamReading}
    (h : TransitionSystem.Reachable (StreamReadingStart setup)
      (AllowedStreamReading setup negative direction) r) :
    setup.SumIs r.consumed r.reader.checksum := by
  apply TransitionSystem.Reachable.invariant
    (fun r : StreamReading => setup.SumIs r.consumed r.reader.checksum) _ _ h
  · rintro r ⟨hchecksum, hconsumed⟩ -
    rw [hchecksum, hconsumed]
    rfl
  · rintro r next hsum ⟨c, hn, hconnected, hpeeks, rfl⟩
    exact StreamReading.call_sum hsum hn hconnected hpeeks

theorem writing_sum {w : StreamWriting}
    (h : TransitionSystem.Reachable (StreamWritingStart setup)
      (AllowedStreamWriting setup direction) w) :
    setup.SumIs w.written w.writer.checksum := by
  apply TransitionSystem.Reachable.invariant
    (fun w : StreamWriting => setup.SumIs w.written w.writer.checksum) _ _ h
  · rintro w ⟨hchecksum, hwritten⟩ -
    rw [hchecksum, hwritten]
    rfl
  · rintro w next hsum ⟨c, hstored, rfl⟩
    exact StreamWriting.call_sum hsum hstored

end Ends

/-! ## Calls of both ends -/

section Refinement

variable {reader : ReaderEnd} {writer : WriterEnd}

/-- What is connected for all the moves of a read is as good as connected. -/
theorem ConnectedFor.eq {view : Mem} {bufSz n head tail : ℤ} {connected : Bool × Bool}
    (h : ConnectedFor bufSz n head tail connected) :
    streamerReadInternal view bufSz n head tail connected =
      streamerReadInternal view bufSz n head tail (true, true) := by
  have hend : (RingReader.mk tail n [] 0).readToEnd view bufSz head connected.1 =
      (RingReader.mk tail n [] 0).readToEnd view bufSz head true := by
    rw [RingReader.readToEnd_start, RingReader.readToEnd_start]
    by_cases htakes : TakesToEnd bufSz n head tail
    · rw [h.1 htakes]
    · unfold TakesToEnd at htakes
      rw [if_neg htakes, if_neg htakes]
  unfold streamerReadInternal
  rw [hend]
  rcases readToEnd_cases view bufSz n head tail true with
    ⟨-, hfalse, -⟩ | ⟨first, hsome, -, -, hhead, -⟩
  · cases hfalse
  · rw [hsome]
    dsimp only [Option.bind_eq_bind, Option.bind_some]
    rw [RingReader.readToHead_eq, RingReader.readToHead_eq]
    by_cases htakes : TakesToHead bufSz n head tail
    · rw [h.2 htakes]
    · rw [← hhead] at htakes
      rw [if_neg htakes, if_neg htakes]

def StreamerReadCall.connectedSeen (c : StreamerReadCall) : WriterSeen :=
  { c.seen with bufferConnected := (true, true) }

def ReaderResult.counted (result : ReaderResult) : ReadOutcome :=
  ⟨result.reader, result.moved, result.moved.length⟩

/-- A read from a connected ring buffer, which does not peek at anything. -/
structure StreamerReadCall.Plain (setup : StreamerSetup) (tail : ℤ) (c : StreamerReadCall) :
    Prop where
  connected : c.SeesData setup →
    ConnectedFor setup.bufSz (osInt c.n) c.seen.head tail c.seen.bufferConnected
  peek : c.SeesData setup → c.peek = true →
    ¬TakesToEnd setup.bufSz (osInt c.n) c.seen.head tail ∧
      ¬TakesToHead setup.bufSz (osInt c.n) c.seen.head tail

theorem StreamerReadCall.Plain.readData {c : StreamerReadCall}
    (h : c.Plain setup reader.tail) (done : ReaderEnd → ReaderEnd) :
    setup.readDataCounted reader c done =
      (setup.readData reader c.call c.connectedSeen c.n done).counted := by
  unfold StreamerSetup.readDataCounted StreamerSetup.readData StreamerReadCall.connectedSeen
  dsimp only
  by_cases hsignal : (c.seen.signal ≠ .running ∧ c.seen.signal ≠ .completed) ∨ c.call.interrupt
  · rw [if_pos hsignal, if_pos hsignal]
    rfl
  · rw [if_neg hsignal, if_neg hsignal]
    by_cases hhead : c.seen.head < 0 ∨ setup.bufSz ≤ c.seen.head
    · rw [if_pos hhead, if_pos hhead]
      rfl
    · rw [if_neg hhead, if_neg hhead]
      have hsees : c.SeesData setup := by
        simp only [not_or, not_and, not_not, ne_eq, Bool.not_eq_true] at hsignal
        exact ⟨by tauto, hsignal.2, by omega, by omega⟩
      have hconnected := h.connected hsees
      rcases streamerReadInternal_cases c.seen.view setup.bufSz (osInt c.n) c.seen.head
          reader.tail c.seen.bufferConnected with
        ⟨hlost, -⟩ | ⟨ring, hring, -, hcounts, hmoved, hzero⟩
      · exact absurd hconnected hlost
      · rw [← hconnected.eq, hring, hmoved]
        dsimp only
        have hnbytes := hcounts.nbytes
        by_cases hnone : ring.nbytes = 0
        · have hnothing : ring.moved = [] := List.eq_nil_of_length_eq_zero (by omega)
          simp only [hnone, hnothing, ne_eq, not_true_eq_false, false_and, if_false,
            apply_ite ReaderResult.counted]
          rfl
        · have hpeek : c.peek = false := by
            rw [← Bool.not_eq_true]
            exact fun hpeek => hnone (hzero.mpr (h.peek hsees hpeek))
          simp only [hnone, hpeek, ne_eq, not_false_eq_true, and_self, if_true, false_and,
            if_false, apply_ite ReaderResult.counted]
          rw [hnbytes]
          rfl

theorem StreamerReadCall.deviceRead_eq {c : StreamerReadCall}
    (h : reader.step = .transferData ∨ reader.step = .initialized → c.Plain setup reader.tail) :
    setup.deviceReadCounted reader c =
      (setup.deviceRead reader c.call c.connectedSeen c.n).counted := by
  unfold StreamerSetup.deviceReadCounted StreamerSetup.deviceRead
  by_cases hconnected : c.call.connected ∨ reader.step = .failedAndIdleSet
  · rw [if_pos hconnected]
    dsimp only
    cases hstep : reader.step with
    | initialized =>
        dsimp only
        rw [apply_ite ReaderResult.counted]
        have hplain := h (Or.inr hstep)
        have hdata := @StreamerReadCall.Plain.readData setup
          ((reader.setSignal .running).to .transferData) c ⟨hplain.connected, hplain.peek⟩
        rw [hdata]
        rfl
    | transferData => exact (h (Or.inl hstep)).readData _
    | failed2 =>
        simp only [apply_ite ReaderResult.counted]
        rfl
    | _ => rfl
  · rw [if_neg hconnected]
    rfl

theorem StreamerReadCall.controllerRead_eq {c : StreamerReadCall}
    (h : reader.step = .transferData → c.Plain setup reader.tail) :
    setup.controllerReadCounted reader c =
      (setup.controllerRead reader c.call c.connectedSeen c.n).counted := by
  unfold StreamerSetup.controllerReadCounted StreamerSetup.controllerRead
  by_cases hconnected : c.call.connected ∨ reader.step = .failedAndIdleSet
  · rw [if_pos hconnected]
    dsimp only
    cases hstep : reader.step with
    | transferData => exact (h hstep).readData _
    | initialized2 =>
        simp only [apply_ite ReaderResult.counted]
        rfl
    | transferDone2 =>
        simp only [apply_ite ReaderResult.counted]
        rfl
    | failed2 =>
        simp only [apply_ite ReaderResult.counted]
        rfl
    | _ => rfl
  · rw [if_neg hconnected]
    rfl

theorem StreamerReadCall.plain {c : StreamerReadCall} (hgiven : c.given = true)
    (hcall : c.call.connected = true) (henabled : setup.disableChecksum = false)
    (hconnected : c.Connected setup direction reader)
    (hpeeks : c.PeeksNothing setup direction reader)
    (hstep : reader.step = .transferData ∨ direction = .toDevice ∧ reader.step = .initialized) :
    c.Plain setup reader.tail where
  connected hsees := hconnected ⟨hgiven, hcall, hstep, hsees⟩
  peek hsees hpeek := hpeeks henabled hpeek ⟨hgiven, hcall, hstep, hsees⟩

theorem StreamerSetup.readCounted_read {c : StreamerReadCall} (hgiven : c.given = true)
    (hn : 0 ≤ c.n) (hcall : c.call = undisturbedCall)
    (henabled : setup.disableChecksum = false) (hconnected : c.Connected setup direction reader)
    (hpeeks : c.PeeksNothing setup direction reader) :
    let result := setup.readCounted negative direction reader c
    (result.1.reader, result.1.moved, result.2) =
      setup.read direction reader c.connectedSeen c.n c.cs := by
  have hplain := c.plain hgiven (by rw [hcall]; rfl) henabled hconnected hpeeks
  unfold StreamerSetup.readCounted StreamerSetup.read StreamerSetup.checkRead
  rw [if_neg (by simp [hgiven, hn]), ← hcall]
  cases direction with
  | fromDevice =>
      dsimp only
      rw [StreamerReadCall.controllerRead_eq fun hdata => hplain (Or.inl hdata)]
      simp only [henabled, Bool.false_eq_true, if_false, ReaderResult.counted,
        StreamerSetup.checksumOf_length]
  | toDevice =>
      dsimp only
      rw [StreamerReadCall.deviceRead_eq fun hdata =>
        hplain (hdata.imp_right fun hinitialized => ⟨rfl, hinitialized⟩)]
      simp only [henabled, Bool.false_eq_true, if_false, ReaderResult.counted,
        StreamerSetup.checksumOf_length]

theorem StreamerSetup.readCounted_consumed {c : StreamerReadCall} (hgiven : c.given = true)
    (hn : 0 ≤ c.n) (hcall : c.call = undisturbedCall)
    (henabled : setup.disableChecksum = false) (hconnected : c.Connected setup direction reader)
    (hpeeks : c.PeeksNothing setup direction reader) :
    let result := setup.readCounted negative direction reader c
    (result.1.reader, result.1.consumed c.peek, result.2) =
      setup.read direction reader c.connectedSeen c.n c.cs := by
  have hread := @StreamerSetup.readCounted_read setup negative direction reader c hgiven hn hcall
    henabled hconnected hpeeks
  have hright := (setup.readCounted_isRight_iff negative direction reader c hn).mpr hconnected
  have hconsumed : (setup.readCounted negative direction reader c).1.consumed c.peek =
      (setup.readCounted negative direction reader c).1.moved := by
    obtain ⟨outcome, status, hcounts, heq⟩ :=
      @StreamerSetup.readCounted_eq setup direction negative reader c hgiven hn
    rw [heq] at hright ⊢
    simp only [henabled, Bool.false_eq_true, if_false] at hright ⊢
    exact hcounts.consumed henabled hright.1 hconnected hpeeks
  dsimp only at hread ⊢
  rw [hconsumed]
  exact hread

end Refinement
section Refinement

variable {writer : WriterEnd} {data : Option (List UInt8)} {signal : StreamerState} {tail : ℤ}
  {stored : Bool × Bool}

def undisturbedWrite (data : Option (List UInt8)) (signal : StreamerState) (tail : ℤ)
    (stored : Bool × Bool) : StreamerWriteCall :=
  ⟨true, data, undisturbedCall, signal, tail, stored⟩

def WriteOutcome.result (outcome : WriteOutcome) : WriterResult :=
  ⟨outcome.writer, outcome.moved⟩

theorem StoredFor.writeInternal {c : StreamerWriteCall} {bytes : List UInt8}
    (h : StoredFor setup.bufSz (osInt bytes.length) writer.head c.tail c.stored) :
    (setup.writeInternalCounted writer bytes c).result =
      setup.writeInternal writer bytes c.tail := by
  have htake := storedFor_take.mpr h
  have hmoved := htake.moved writer.signals.buffer
  obtain ⟨hlo, hhi, -⟩ := streamerStoreInternal_counts writer.signals.buffer
    (bytes.take (osInt bytes.length).toNat) setup.bufSz writer.head c.tail c.stored
  rw [htake.eq_write] at hmoved hlo hhi
  unfold StreamerSetup.writeInternalCounted StreamerSetup.writeInternal WriteOutcome.result
  dsimp only at hmoved ⊢
  rw [htake.eq_write]
  generalize streamerWriteInternal writer.signals.buffer
    (bytes.take (osInt bytes.length).toNat) setup.bufSz writer.head c.tail = ring
    at hmoved hlo hhi
  have hcounted : bytes.take ring.nbytes.toNat = ring.moved := by
    rw [hmoved, List.take_take, Nat.min_eq_left]
    rw [List.length_take] at hhi
    omega
  rw [hcounted]

theorem deviceWriteDataCounted_write
    (h : signal = .running ∨ signal = .completed → 0 ≤ tail ∧ tail < setup.bufSz →
      StoredFor setup.bufSz (osInt (data.getD []).length) writer.head tail stored) :
    (setup.deviceWriteDataCounted writer (undisturbedWrite data signal tail stored)).result =
      setup.deviceWriteData writer undisturbedCall signal tail data := by
  unfold StreamerSetup.deviceWriteDataCounted StreamerSetup.deviceWriteData undisturbedWrite
  dsimp only
  by_cases hsignal : (signal ≠ .running ∧ signal ≠ .completed) ∨ undisturbedCall.interrupt
  · rw [if_pos hsignal, if_pos hsignal]
    rfl
  · rw [if_neg hsignal, if_neg hsignal]
    by_cases htail : tail < 0 ∨ setup.bufSz ≤ tail
    · rw [if_pos htail, if_pos htail]
      rfl
    · rw [if_neg htail, if_neg htail]
      cases data with
      | none => rfl
      | some bytes =>
          have hstored := h (by tauto) (by omega)
          dsimp only
          rw [if_neg (by simp [undisturbedCall]), if_neg (by simp [undisturbedCall])]
          exact StoredFor.writeInternal
            (c := ⟨true, some bytes, undisturbedCall, signal, tail, stored⟩) hstored

theorem controllerWriteDataCounted_write
    (h : signal = .running → 0 ≤ tail ∧ tail < setup.bufSz →
      StoredFor setup.bufSz (osInt (data.getD []).length) writer.head tail stored) :
    (setup.controllerWriteDataCounted writer
        (undisturbedWrite data signal tail stored)).result =
      setup.controllerWriteData writer undisturbedCall signal tail data := by
  unfold StreamerSetup.controllerWriteDataCounted StreamerSetup.controllerWriteData
    undisturbedWrite
  dsimp only
  by_cases hsignal : signal ≠ .running ∨ undisturbedCall.interrupt
  · rw [if_pos hsignal, if_pos hsignal]
    rfl
  · rw [if_neg hsignal, if_neg hsignal]
    cases data with
    | none => rfl
    | some bytes =>
        cases bytes with
        | nil =>
            simp only [apply_ite WriteOutcome.result]
            rfl
        | cons byte bytes =>
            dsimp only
            by_cases htail : tail < 0 ∨ setup.bufSz ≤ tail
            · rw [if_pos htail, if_pos htail]
              rfl
            · have hstored := h (by tauto) (by omega)
              rw [if_neg htail, if_neg htail]
              exact StoredFor.writeInternal
                (c := ⟨true, some (byte :: bytes), undisturbedCall, signal, tail, stored⟩) hstored

theorem StreamerSetup.writeCounted_write
    (h : (undisturbedWrite data signal tail stored).Stored setup direction writer) :
    (setup.writeCounted direction writer (undisturbedWrite data signal tail stored)).1.result =
      setup.write direction writer signal tail data := by
  cases direction with
  | fromDevice =>
      have hstored : writer.step = .transferData ∨ writer.step = .initialized →
          signal = .running ∨ signal = .completed → 0 ≤ tail ∧ tail < setup.bufSz →
          StoredFor setup.bufSz (osInt (data.getD []).length) writer.head tail stored :=
        fun hstep hgoes hinside => h ⟨rfl, rfl, rfl, hinside, hstep, hgoes⟩
      change (setup.deviceWriteCounted writer (undisturbedWrite data signal tail stored)).result =
        setup.deviceWrite writer undisturbedCall signal tail data
      unfold StreamerSetup.deviceWriteCounted StreamerSetup.deviceWrite
      simp only [undisturbedWrite, undisturbed_connected, true_or, if_true]
      cases hstep : writer.step with
      | initialized =>
          have hdata := @deviceWriteDataCounted_write setup
            ((writer.setSignal .running).to .transferData) data signal tail stored
            (hstored (Or.inr hstep))
          unfold undisturbedWrite at hdata
          simp only [apply_ite WriteOutcome.result, hdata]
          rfl
      | transferData => exact deviceWriteDataCounted_write (hstored (Or.inl hstep))
      | transferDone =>
          simp only [apply_ite WriteOutcome.result]
          rfl
      | failed2 =>
          simp only [apply_ite WriteOutcome.result]
          rfl
      | _ => rfl
  | toDevice =>
      have hstored : writer.step = .transferData ∨ writer.step = .initialized2 →
          signal = .running → 0 ≤ tail ∧ tail < setup.bufSz →
          StoredFor setup.bufSz (osInt (data.getD []).length) writer.head tail stored :=
        fun hstep hgoes hinside => h ⟨rfl, rfl, rfl, hinside, hstep, hgoes⟩
      change (setup.controllerWriteCounted writer
          (undisturbedWrite data signal tail stored)).result =
        setup.controllerWrite writer undisturbedCall signal tail data
      unfold StreamerSetup.controllerWriteCounted StreamerSetup.controllerWrite
      simp only [undisturbedWrite, undisturbed_connected, true_or, if_true]
      cases hstep : writer.step with
      | initialized2 =>
          have hdata := @controllerWriteDataCounted_write setup (writer.to .transferData) data
            signal tail stored (hstored (Or.inr hstep))
          unfold undisturbedWrite at hdata
          simp only [apply_ite WriteOutcome.result, hdata]
          rfl
      | transferData => exact controllerWriteDataCounted_write (hstored (Or.inl hstep))
      | transferDone =>
          simp only [apply_ite WriteOutcome.result]
          rfl
      | failed2 =>
          simp only [apply_ite WriteOutcome.result]
          rfl
      | _ => rfl

end Refinement

/-! ## Runs of both ends -/

def undisturbedRead (n : ℤ) (peek : Bool) (seen : WriterSeen) (cs : ℕ) : StreamerReadCall :=
  ⟨true, n, peek, undisturbedCall, seen, cs⟩

/-- A call on one end of a transfer, also to peek, which meets the conditions: those
for the transfer to be complete, that all moves find the ring buffer, and that a peek
finds nothing. -/
inductive StreamStep (setup : StreamerSetup) (negative : ℕ → ℕ) (direction : StreamDirection) :
    Transfer → Transfer → Prop where
  | write (t : Transfer) (data : Option (List UInt8)) (stored : Bool × Bool) (k k₁ : ℕ)
      (first second : ReaderSignals)
      (hseen : t.seenByWriter ≤ k) (horder : k ≤ k₁)
      (hfirst : t.reader.published[k]? = some first)
      (hsecond : t.reader.published[k₁]? = some second)
      (hmeets : t.Meets setup direction (.write data first.signal second.tail))
      (hstored : (undisturbedWrite data first.signal second.tail stored).Stored setup direction
        t.writer) :
      StreamStep setup negative direction t
        (t.afterWrite k₁ (setup.writeCounted direction t.writer
          (undisturbedWrite data first.signal second.tail stored)).1.result)
  | read (t : Transfer) (c : StreamerReadCall) (n : ℤ) (hn : 0 ≤ n) (peek : Bool) (view : Mem)
      (connected : Bool × Bool) (k k₁ k₂ : ℕ) (first second third : WriterSignals)
      (hseen : t.seenByReader ≤ k) (horder : k ≤ k₁) (horder' : k₁ ≤ k₂)
      (hfirst : t.writer.published[k]? = some first)
      (hsecond : t.writer.published[k₁]? = some second)
      (hview : t.Views setup k₁ view)
      (hthird : t.writer.published[k₂]? = some third)
      (hcall : c = undisturbedRead n peek ⟨first.signal, second.head, view, connected⟩ third.cs)
      (hmeets : t.Meets setup direction (.read c.n c.seen c.cs))
      (hconnected : c.Connected setup direction t.reader)
      (hpeeks : c.PeeksNothing setup direction t.reader) :
      StreamStep setup negative direction t
        (t.afterRead k₂
          (let result := setup.readCounted negative direction t.reader c
          (result.1.reader, result.1.consumed c.peek, result.2)))

/-- The reading end goes on, or it has returned that the transfer is completed: it has
read what was written, and both ends have the same checksum. -/
def Transfer.SumsAgree (t : Transfer) : Prop :=
  t.lastRead = .success ∨
    t.lastRead = .completed ∧ t.read = t.written ∧ t.reader.checksum = t.writer.signals.cs

theorem Transfer.Valid.streamStep {t next : Transfer} (henabled : setup.disableChecksum = false)
    (h : t.Valid setup direction) (hstep : StreamStep setup negative direction t next) :
    next.Valid setup direction := by
  cases hstep with
  | write data stored k k₁ first second hseen horder hfirst hsecond hmeets hstored =>
      rw [StreamerSetup.writeCounted_write hstored]
      exact h.write hseen horder hfirst hsecond hmeets
  | read c n hn peek view connected k k₁ k₂ first second third hseen horder horder' hfirst
      hsecond hview hthird hcall hmeets hconnected hpeeks =>
      have hn' : 0 ≤ c.n := by
        rw [hcall]
        exact hn
      rw [setup.readCounted_consumed (by rw [hcall]; rfl) hn' (by rw [hcall]; rfl) henabled
        hconnected hpeeks]
      subst hcall
      exact h.read hseen horder horder' hfirst hsecond hview hthird hmeets

theorem Transfer.Valid.sumsAgree {t : Transfer} (henabled : setup.disableChecksum = false)
    (h : t.Valid setup direction) : t.SumsAgree := by
  rcases h.1 with hactive | hdrained
  · exact Or.inl hactive.lastRead
  · rcases hdrained.lastRead with hsuccess | hcompleted
    · exact Or.inl hsuccess
    · refine Or.inr ⟨hcompleted, hdrained.read, ?_⟩
      rw [hdrained.readerSum henabled, hdrained.cs henabled, hdrained.read]

/-- For any streamer: `n_read` and `n_written` are right exactly when the ring buffer
is there for the moves which a call makes.  In every run of calls for which it is, and
which peek at nothing, the checksum of each end is that of the bytes it has consumed
or written; in undisturbed runs of both ends they agree in the end. -/
theorem stream_counts_and_sums (setup : StreamerSetup) (negative : ℕ → ℕ)
    (direction : StreamDirection) :
    (∀ (reader : ReaderEnd) (c : StreamerReadCall), 0 ≤ c.n →
      (CountIsRight (setup.readCounted negative direction reader c).1.nRead c.n
          (setup.readCounted negative direction reader c).1.moved
          (setup.readCounted negative direction reader c).2 ↔
        c.Connected setup direction reader)) ∧
    (∀ (writer : WriterEnd) (c : StreamerWriteCall),
      (CountIsRight (setup.writeCounted direction writer c).1.nWritten c.bytes.length
          (setup.writeCounted direction writer c).1.moved
          (setup.writeCounted direction writer c).2 ↔
        c.Stored setup direction writer)) ∧
    (∀ r, TransitionSystem.Reachable (StreamReadingStart setup)
      (AllowedStreamReading setup negative direction) r →
        setup.SumIs r.consumed r.reader.checksum) ∧
    (∀ w, TransitionSystem.Reachable (StreamWritingStart setup)
      (AllowedStreamWriting setup direction) w →
        setup.SumIs w.written w.writer.checksum) ∧
    (setup.disableChecksum = false → ∀ t, TransitionSystem.Reachable (TransferStart setup)
      (StreamStep setup negative direction) t → t.SumsAgree) := by
  refine ⟨setup.readCounted_isRight_iff negative direction,
    setup.writeCounted_isRight_iff direction, fun _ => reading_sum, fun _ => writing_sum, ?_⟩
  intro henabled t hreachable
  have hvalid : t.Valid setup direction := by
    apply TransitionSystem.Reachable.invariant (Transfer.Valid setup direction) _ _ hreachable
    · exact fun _ hstart => Transfer.Valid.start hstart
    · exact fun _ _ hs hstep => hs.streamStep henabled hstep
  exact hvalid.sumsAgree henabled

theorem StreamStep.of_transferStep {t next : Transfer} {call : TransferCall}
    (henabled : setup.disableChecksum = false) (h : TransferStep setup direction t call next)
    (hmeets : t.Meets setup direction call) : StreamStep setup negative direction t next := by
  cases h with
  | write data k k₁ first second hseen horder hfirst hsecond =>
      have hstored : (undisturbedWrite data first.signal second.tail (true, true)).Stored setup
          direction t.writer := fun _ => ⟨fun _ => rfl, fun _ => rfl⟩
      have hstep := @StreamStep.write setup negative direction t data (true, true) k k₁ first second
        hseen horder hfirst hsecond hmeets hstored
      rw [StreamerSetup.writeCounted_write hstored] at hstep
      exact hstep
  | read n hn view k k₁ k₂ first second third hseen horder horder' hfirst hsecond hview hthird =>
      generalize hcall : undisturbedRead n false ⟨first.signal, second.head, view, (true, true)⟩
        third.cs = c
      have hconnected : c.Connected setup direction t.reader := by
        rw [← hcall]
        exact fun _ => ⟨fun _ => rfl, fun _ => rfl⟩
      have hpeeks : c.PeeksNothing setup direction t.reader := by
        rw [← hcall]
        intro _ hpeek
        cases hpeek
      have hn' : 0 ≤ n := Int.le_of_lt hn
      have hstep := @StreamStep.read setup negative direction t c n hn' false view (true, true)
        k k₁ k₂ first second third hseen horder horder' hfirst hsecond hview hthird hcall.symm
        (by rw [← hcall]; exact hmeets) hconnected hpeeks
      rw [setup.readCounted_consumed (by rw [← hcall]; rfl) (by rw [← hcall]; exact hn')
        (by rw [← hcall]; rfl) henabled hconnected hpeeks, ← hcall] at hstep
      exact hstep

/-! ## A buffer of four bytes with a checksum -/

def crcByte (checksum : ℕ) (byte : UInt8) : ℕ :=
  (List.range 8).foldl (fun sum _ => if sum % 2 = 1 then (sum / 2) ^^^ 0xA001 else sum / 2)
    (checksum ^^^ byte.toNat)

def crcSetup : StreamerSetup := ⟨4, fourByteSetup.bufSz_pos, 0xFFFF, crcByte, false⟩

def openedStream : Transfer :=
  { openedTransfer with
    writer := { openedTransfer.writer with checksum := crcSetup.checksumInit }
    reader := { openedTransfer.reader with checksum := crcSetup.checksumInit } }

def fourByteRead (peek connected : Bool) : StreamerReadCall :=
  undisturbedRead 4 peek ⟨.running, 2, fun i => if i = 0 then 1 else 2, (connected, connected)⟩ 0

def twoByteWrite : StreamerWriteCall := undisturbedWrite (some [1, 2]) .running 0 (true, true)

/-- A device writes two bytes and the end of the data, and the controller reads
them. -/
def twoByteStream : Option Transfer :=
  [TransferChoice.read 4 0 0 0, .write (some [1, 2]) 1 1, .write none 1 1, .read 4 4 4 4,
    .read 4 4 4 4, .write none 3 3, .read 4 6 6 6].foldlM
    (Transfer.play crcSetup .fromDevice true) openedStream

theorem stream_counts_and_sums_twoByteStream :
    let outcome := crcSetup.readCounted id .toDevice openedStream.reader (fourByteRead false true)
    let written := crcSetup.writeCounted .fromDevice openedStream.writer twoByteWrite
    let r := StreamReading.call crcSetup id .toDevice ⟨openedStream.reader, []⟩
      (fourByteRead false true)
    let w := StreamWriting.call crcSetup .fromDevice ⟨openedStream.writer, []⟩ twoByteWrite
    CountIsRight outcome.1.nRead 4 outcome.1.moved outcome.2 ∧
      CountIsRight written.1.nWritten 2 written.1.moved written.2 ∧
      crcSetup.SumIs r.consumed r.reader.checksum ∧
      crcSetup.SumIs w.written w.writer.checksum ∧
      (twoByteStream.getD openedStream).SumsAgree := by
  obtain ⟨hreads, -, hreading, -, -⟩ := stream_counts_and_sums crcSetup id .toDevice
  obtain ⟨-, hwrites, -, hwriting, hstreams⟩ := stream_counts_and_sums crcSetup id .fromDevice
  have hconnected : (fourByteRead false true).Connected crcSetup .toDevice openedStream.reader :=
    fun _ => ⟨fun _ => rfl, fun _ => rfl⟩
  have hstored : twoByteWrite.Stored crcSetup .fromDevice openedStream.writer :=
    fun _ => ⟨fun _ => rfl, fun _ => rfl⟩
  refine ⟨(hreads _ _ (by decide)).mpr hconnected, (hwrites _ _).mpr hstored, ?_, ?_, ?_⟩
  · apply hreading
    refine (TransitionSystem.Reachable.start ⟨rfl, rfl⟩).next
      ⟨fourByteRead false true, by decide, hconnected, ?_, rfl⟩
    intro _ hpeek
    cases hpeek
  · apply hwriting
    exact (TransitionSystem.Reachable.start ⟨rfl, rfl⟩).next ⟨twoByteWrite, hstored, rfl⟩
  · apply hstreams rfl
    have hplay : twoByteStream = some (twoByteStream.getD openedStream) := rfl
    apply TransitionSystem.Reachable.mono _ (reachable_of_play
      (TransitionSystem.Reachable.start ⟨fun _ => 0, rfl⟩) hplay)
    rintro s s' ⟨call, hcall, hmeets⟩
    exact StreamStep.of_transferStep rfl hcall (hmeets rfl)

/-- A device which reads from a buffer that has lost the connection gets -1 in
`n_read`, and one which peeks at two bytes and then reads them has the checksum of
four bytes. -/
theorem stream_counts_and_sums_fail :
    (∃ (reader : ReaderEnd) (c : StreamerReadCall), 0 ≤ c.n ∧
      ¬CountIsRight (crcSetup.readCounted id .toDevice reader c).1.nRead c.n
          (crcSetup.readCounted id .toDevice reader c).1.moved
          (crcSetup.readCounted id .toDevice reader c).2) ∧
    ∃ r, TransitionSystem.Reachable (StreamReadingStart crcSetup)
        (StreamReadingStep crcSetup id .toDevice) r ∧
      ¬crcSetup.SumIs r.consumed r.reader.checksum := by
  constructor
  · refine ⟨openedStream.reader, fourByteRead false false, by decide, fun hright => ?_⟩
    have hcount : (crcSetup.readCounted id .toDevice openedStream.reader
        (fourByteRead false false)).1.nRead = -1 := rfl
    have hlo := hright.1
    rw [hcount] at hlo
    exact absurd hlo (by decide)
  · have hstart : TransitionSystem.Reachable (StreamReadingStart crcSetup)
        (StreamReadingStep crcSetup id .toDevice) ⟨openedStream.reader, []⟩ :=
      TransitionSystem.Reachable.start ⟨rfl, rfl⟩
    have hpeeks := hstart.next ⟨fourByteRead true true, by decide, rfl⟩
    refine ⟨_, hpeeks.next ⟨fourByteRead false true, by decide, rfl⟩, fun hsum => ?_⟩
    exact absurd (hsum rfl) (by decide +kernel)

end Iocom
