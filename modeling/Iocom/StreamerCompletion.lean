import Iocom.StreamerTransfer
import Iocom.StreamerFifo

/-!
# Completion of transfers

A reading end which gets the signal that the transfer is completed reads once
more, and then it is done.  The transfer is complete when that read takes what
was left in the ring buffer.
-/

namespace Iocom

variable {setup : StreamerSetup} {direction : StreamDirection} {t : Transfer}

/-! ## The ring buffer of a transfer -/

def Transfer.ring (t : Transfer) : RingState where
  buffer := t.writer.signals.buffer
  head := t.writer.head
  heads := t.writer.published.map fun signals => ⟨signals.buffer, signals.head, signals.count⟩
  seenTail := t.seenByWriter
  tail := t.reader.tail
  tails := t.reader.published.map fun signals => ⟨signals.tail, signals.count⟩
  seenHead := t.seenByReader
  written := t.written
  read := t.read

section Ring

variable {sz : ℕ} {state : RingState}

theorem RingState.Valid.publishHead (h : state.Valid sz) :
    RingState.Valid sz { state with
      heads := state.heads ++ [⟨state.buffer, state.head, state.written.length⟩] } := by
  constructor
  case head => exact h.head
  case tail => exact h.tail
  case holds => exact h.holds
  case published =>
    intro published hpublished
    rcases List.mem_append.mp hpublished with hmem | hmem
    · exact h.published published hmem
    · obtain rfl := List.mem_singleton.mp hmem
      exact ⟨h.head, le_refl _, h.holds⟩
  case headsInOrder =>
    dsimp only
    rw [List.pairwise_append]
    refine ⟨h.headsInOrder, List.pairwise_singleton _ _, ?_⟩
    intro earlier hearlier last hlast
    obtain rfl := List.mem_singleton.mp hlast
    exact (h.published earlier hearlier).2.1
  case publishedTail => exact h.publishedTail
  case tailsInOrder => exact h.tailsInOrder
  case read => exact h.read
  case seenHead =>
    obtain ⟨seen, hat, hle⟩ := h.seenHead
    exact ⟨seen, History.getElem?_append_of_some hat, hle⟩
  case seenTail => exact h.seenTail

theorem RingState.Valid.publishTail (h : state.Valid sz) :
    RingState.Valid sz { state with
      tails := state.tails ++ [⟨state.tail, state.read.length⟩] } := by
  constructor
  case head => exact h.head
  case tail => exact h.tail
  case holds => exact h.holds
  case published => exact h.published
  case headsInOrder => exact h.headsInOrder
  case publishedTail =>
    intro published hpublished
    rcases List.mem_append.mp hpublished with hmem | hmem
    · exact h.publishedTail published hmem
    · obtain rfl := List.mem_singleton.mp hmem
      exact ⟨h.tail, le_refl _⟩
  case tailsInOrder =>
    dsimp only
    rw [List.pairwise_append]
    refine ⟨h.tailsInOrder, List.pairwise_singleton _ _, ?_⟩
    intro earlier hearlier last hlast
    obtain rfl := List.mem_singleton.mp hlast
    exact (h.publishedTail earlier hearlier).2
  case read => exact h.read
  case seenHead => exact h.seenHead
  case seenTail =>
    obtain ⟨seen, hat, hroom⟩ := h.seenTail
    exact ⟨seen, History.getElem?_append_of_some hat, hroom⟩

theorem RingState.Valid.seeTail (h : state.Valid sz) {k : ℕ} {published : PublishedTail}
    (hseen : state.seenTail ≤ k) (htail : state.tails[k]? = some published) :
    RingState.Valid sz { state with seenTail := k } :=
  { h with seenTail := ⟨published, htail, (h.seesTail hseen htail).2.2⟩ }

end Ring

/-! ## Conditions and results -/

def StreamerSetup.unread (setup : StreamerSetup) (head tail : ℤ) : ℤ :=
  if head - tail < 0 then head - tail + setup.bufSz else head - tail

/-- A device makes its first call when the controller has started the transfer,
and the read which gets the signal that the transfer is completed takes all that
is left. -/
def Transfer.Meets (setup : StreamerSetup) (direction : StreamDirection) (t : Transfer) :
    TransferCall → Prop
  | .write _ signal _ =>
      direction = .fromDevice ∧ t.writer.step = .initialized →
        signal = .running ∨ signal = .completed
  | .read n seen _ =>
      (direction = .toDevice ∧ t.reader.step = .initialized →
        seen.signal = .running ∨ seen.signal = .completed) ∧
      (seen.signal = .completed ∧
          (t.reader.step = .transferData ∨
            direction = .toDevice ∧ t.reader.step = .initialized) →
        setup.unread seen.head t.reader.tail ≤ osInt n)

/-- The reading end goes on, or it has returned that the transfer is completed
and has read what was written. -/
def Transfer.Complete (t : Transfer) : Prop :=
  t.lastRead = .success ∨ t.lastRead = .completed ∧ t.read = t.written

/-- The checksum of bytes from the beginning of a transfer on, unless it is
disabled. -/
def StreamerSetup.SumIs (setup : StreamerSetup) (bytes : List UInt8) (checksum : ℕ) : Prop :=
  setup.disableChecksum = false → checksum = setup.checksum bytes setup.checksumInit

theorem StreamerSetup.SumIs.append {bytes : List UInt8} {checksum : ℕ}
    (h : setup.SumIs bytes checksum) (more : List UInt8) :
    setup.SumIs (bytes ++ more) (setup.checksum more checksum) := by
  intro henabled
  rw [h henabled]
  unfold StreamerSetup.checksum
  rw [List.foldl_append]

/-! ## Before the reading end is done -/

/-- What a version of the signals of the writing end tells once the transfer has
been started there. -/
def Transfer.WriterTells (setup : StreamerSetup) (t : Transfer) (signals : WriterSignals) :
    Prop :=
  signals.signal = .running ∨
    signals.signal = .completed ∧ t.writer.step = .transferDone ∧
      signals.count = t.written.length ∧ setup.SumIs t.written signals.cs

/-- The reading end has not been told that the transfer is completed.  Both ends
tell that they are idle with the first version of their signals, and running
after it. -/
structure Transfer.Active (setup : StreamerSetup) (t : Transfer) : Prop where
  ring : t.ring.Valid setup.bufSz
  writerHead : t.writer.signals.head = t.writer.head
  writerCount : t.writer.signals.count = t.written.length
  readerTail : t.reader.signals.tail = t.reader.tail
  readerCount : t.reader.signals.count = t.read.length
  writerSum : setup.SumIs t.written t.writer.checksum
  readerSum : setup.SumIs t.read t.reader.checksum
  writerIdle : ∃ signals, t.writer.published[0]? = some signals ∧ signals.signal = .idle
  readerIdle : ∃ signals, t.reader.published[0]? = some signals ∧ signals.signal = .idle
  writerTells : ∀ k signals, 1 ≤ k → t.writer.published[k]? = some signals →
    t.WriterTells setup signals
  completedLast : ∀ k signals, t.writer.published[k]? = some signals →
    signals.signal = .completed → k + 1 = t.writer.published.length
  writerLast : ∀ k signals, t.writer.published[k]? = some signals →
    k + 1 = t.writer.published.length → signals = t.writer.signals
  readerTells : ∀ k signals, 1 ≤ k → t.reader.published[k]? = some signals →
    signals.signal = .running
  writerStep : t.writer.step = .initialized ∨ t.writer.step = .initialized2 ∨
    (t.writer.step = .transferData ∨ t.writer.step = .transferDone) ∧ 1 ≤ t.seenByWriter
  readerStep : t.reader.step = .initialized ∨ t.reader.step = .initialized2 ∨
    t.reader.step = .transferData ∧ 1 ≤ t.seenByReader
  writerRunning : t.writer.step = .initialized2 ∨ t.writer.step = .transferData →
    t.writer.signals.signal = .running
  readerRunning : t.reader.step = .initialized2 ∨ t.reader.step = .transferData →
    t.reader.signals.signal = .running
  lastRead : t.lastRead = .success

structure Transfer.Drained (setup : StreamerSetup) (t : Transfer) : Prop where
  read : t.read = t.written
  writerStep : t.writer.step = .transferDone ∨ t.writer.step = .allCompleted
  readerStep : t.reader.step = .transferDone ∨ t.reader.step = .transferDone2 ∨
    t.reader.step = .allCompleted
  cs : setup.SumIs t.written t.writer.signals.cs
  seenCs : ∀ k signals, t.seenByReader ≤ k → t.writer.published[k]? = some signals →
    setup.SumIs t.written signals.cs
  readerSum : setup.SumIs t.read t.reader.checksum
  lastRead : t.lastRead = .success ∨ t.lastRead = .completed

theorem Transfer.Active.complete (h : t.Active setup) : t.Complete := Or.inl h.lastRead

theorem Transfer.Drained.complete (h : t.Drained setup) : t.Complete := by
  rcases h.lastRead with hsuccess | hcompleted
  · exact Or.inl hsuccess
  · exact Or.inr ⟨hcompleted, h.read⟩

theorem undisturbed_connected : undisturbedCall.connected = true := rfl

/-! ## Calls of the writing end -/

section Writing

variable {k k₁ : ℕ} {first second : ReaderSignals}

theorem Transfer.ring_tail (hat : t.reader.published[k]? = some second) :
    t.ring.tails[k]? = some ⟨second.tail, second.count⟩ := by
  unfold Transfer.ring
  rw [List.getElem?_map, hat]
  rfl

theorem Transfer.ring_head {signals : WriterSignals}
    (hat : t.writer.published[k]? = some signals) :
    t.ring.heads[k]? = some ⟨signals.buffer, signals.head, signals.count⟩ := by
  unfold Transfer.ring
  rw [List.getElem?_map, hat]
  rfl

theorem Transfer.Active.not_completed (h : t.Active setup)
    (hstep : t.writer.step ≠ .transferDone) {signals : WriterSignals}
    (hat : t.writer.published[k]? = some signals) : signals.signal ≠ .completed := by
  intro hcompleted
  cases k with
  | zero =>
      obtain ⟨initial, hinitial, hidle⟩ := h.writerIdle
      rw [hat] at hinitial
      obtain rfl := Option.some.inj hinitial
      rw [hidle] at hcompleted
      cases hcompleted
  | succ k =>
      rcases h.writerTells (k + 1) signals (Nat.le_add_left 1 k) hat with hrunning | ⟨-, hdone, -⟩
      · rw [hrunning] at hcompleted
        cases hcompleted
      · exact hstep hdone

/-- A writing end which has begun to transfer data gets that the other one is
running. -/
theorem Transfer.Active.reader_running (h : t.Active setup) (hstarted : 1 ≤ k)
    (hat : t.reader.published[k]? = some first) : first.signal = .running :=
  h.readerTells k first hstarted hat

theorem Transfer.Active.started_of_reader (h : t.Active setup)
    (hat : t.reader.published[k]? = some first) (hsignal : first.signal ≠ .idle) : 1 ≤ k := by
  cases k with
  | zero =>
      obtain ⟨initial, hinitial, hidle⟩ := h.readerIdle
      rw [hat] at hinitial
      obtain rfl := Option.some.inj hinitial
      exact absurd hidle hsignal
  | succ k => exact Nat.le_add_left 1 k

theorem Transfer.Active.started_of_writer (h : t.Active setup) {signals : WriterSignals}
    (hat : t.writer.published[k]? = some signals) (hsignal : signals.signal ≠ .idle) :
    1 ≤ k := by
  cases k with
  | zero =>
      obtain ⟨initial, hinitial, hidle⟩ := h.writerIdle
      rw [hat] at hinitial
      obtain rfl := Option.some.inj hinitial
      exact absurd hidle hsignal
  | succ k => exact Nat.le_add_left 1 k

def ActiveWriterStep (step : StreamerStep) (seen : ℕ) : Prop :=
  step = .initialized ∨ step = .initialized2 ∨
    (step = .transferData ∨ step = .transferDone) ∧ 1 ≤ seen

/-- The writing end only looks at the signals of the other end, and perhaps goes
on to its next step. -/
theorem Transfer.Active.writerLooks (h : t.Active setup) (hseen : t.seenByWriter ≤ k)
    (hat : t.reader.published[k]? = some second) {step : StreamerStep}
    (hdone : t.writer.step = .transferDone → step = .transferDone)
    (hrunning : step = .initialized2 ∨ step = .transferData →
      t.writer.signals.signal = .running)
    (hstep : ActiveWriterStep step k) :
    (t.afterWrite k ⟨t.writer.to step, []⟩).Active setup := by
  have hring := h.ring.seeTail hseen (Transfer.ring_tail hat)
  unfold Transfer.afterWrite WriterEnd.to
  rw [List.append_nil]
  constructor
  case ring => exact hring
  case writerHead => exact h.writerHead
  case writerCount => exact h.writerCount
  case readerTail => exact h.readerTail
  case readerCount => exact h.readerCount
  case writerSum => exact h.writerSum
  case readerSum => exact h.readerSum
  case writerIdle => exact h.writerIdle
  case readerIdle => exact h.readerIdle
  case writerTells =>
    intro i signals hi hsignals
    rcases h.writerTells i signals hi hsignals with hrunning | ⟨hcompleted, hold, hcount, hsum⟩
    · exact Or.inl hrunning
    · exact Or.inr ⟨hcompleted, hdone hold, hcount, hsum⟩
  case completedLast => exact h.completedLast
  case writerLast => exact h.writerLast
  case readerTells => exact h.readerTells
  case writerStep => exact hstep
  case readerStep => exact h.readerStep
  case writerRunning => exact hrunning
  case readerRunning => exact h.readerRunning
  case lastRead => exact h.lastRead

theorem Transfer.Active.writerPublishes (h : t.Active setup)
    (hnotDone : t.writer.step ≠ .transferDone) {result : WriterResult}
    (hpublished : result.writer.published = t.writer.published ++ [result.writer.signals])
    (hring : (t.afterWrite k result).ring.Valid setup.bufSz)
    (hhead : result.writer.signals.head = result.writer.head)
    (hcount : result.writer.signals.count = (t.written ++ result.moved).length)
    (hsum : setup.SumIs (t.written ++ result.moved) result.writer.checksum)
    (htells : (t.afterWrite k result).WriterTells setup result.writer.signals)
    (hrunning : result.writer.step = .initialized2 ∨ result.writer.step = .transferData →
      result.writer.signals.signal = .running)
    (hstep : ActiveWriterStep result.writer.step k) :
    (t.afterWrite k result).Active setup := by
  have hsplit : ∀ i signals, result.writer.published[i]? = some signals →
      t.writer.published[i]? = some signals ∨
        i = t.writer.published.length ∧ signals = result.writer.signals := by
    intro i signals hat
    rw [hpublished, List.getElem?_append] at hat
    split_ifs at hat with hlt
    · exact Or.inl hat
    · rw [List.getElem?_singleton] at hat
      split_ifs at hat with hzero
      obtain rfl := Option.some.inj hat
      exact Or.inr ⟨by omega, rfl⟩
  constructor
  case ring => exact hring
  case writerHead => exact hhead
  case writerCount => exact hcount
  case readerTail => exact h.readerTail
  case readerCount => exact h.readerCount
  case writerSum => exact hsum
  case readerSum => exact h.readerSum
  case writerIdle =>
    obtain ⟨initial, hinitial, hidle⟩ := h.writerIdle
    refine ⟨initial, ?_, hidle⟩
    change result.writer.published[0]? = some initial
    rw [hpublished]
    exact History.getElem?_append_of_some hinitial
  case readerIdle => exact h.readerIdle
  case writerTells =>
    intro i signals hi hat
    rcases hsplit i signals hat with hold | ⟨-, rfl⟩
    · rcases h.writerTells i signals hi hold with hrunning | ⟨-, hdone, -⟩
      · exact Or.inl hrunning
      · exact absurd hdone hnotDone
    · exact htells
  case completedLast =>
    intro i signals hat hcompleted
    rcases hsplit i signals hat with hold | ⟨rfl, -⟩
    · exact absurd hcompleted (h.not_completed hnotDone hold)
    · change _ = result.writer.published.length
      rw [hpublished, List.length_append, List.length_singleton]
  case writerLast =>
    intro i signals hat hlast
    rcases hsplit i signals hat with hold | ⟨-, rfl⟩
    · change i + 1 = result.writer.published.length at hlast
      rw [hpublished, List.length_append, List.length_singleton] at hlast
      obtain ⟨hlt, -⟩ := List.getElem?_eq_some_iff.mp hold
      omega
    · rfl
  case readerTells => exact h.readerTells
  case writerStep => exact hstep
  case readerStep => exact h.readerStep
  case writerRunning => exact hrunning
  case readerRunning => exact h.readerRunning
  case lastRead => exact h.lastRead

/-- The ring buffer when signals are published which leave the buffer and the
head as they were. -/
theorem Transfer.Active.ring_set (h : t.Active setup) (hseen : t.seenByWriter ≤ k)
    (hat : t.reader.published[k]? = some second) {writer : WriterEnd}
    (hpublished : writer.published = t.writer.published ++ [writer.signals])
    (hbuffer : writer.signals.buffer = t.writer.signals.buffer)
    (hsignalHead : writer.signals.head = t.writer.signals.head)
    (hcount : writer.signals.count = t.writer.signals.count)
    (hhead : writer.head = t.writer.head) :
    (t.afterWrite k ⟨writer, []⟩).ring.Valid setup.bufSz := by
  have hring := (h.ring.seeTail hseen (Transfer.ring_tail hat)).publishHead
  have hlast : PublishedHead.mk writer.signals.buffer writer.signals.head writer.signals.count =
      ⟨t.writer.signals.buffer, t.writer.head, t.written.length⟩ := by
    rw [hbuffer, hsignalHead, hcount, h.writerHead, h.writerCount]
  unfold Transfer.afterWrite Transfer.ring
  dsimp only
  rw [hpublished, List.map_append, List.map_singleton, hlast, hbuffer, hhead, List.append_nil]
  exact hring

theorem Transfer.Active.writerStarts (h : t.Active setup) (hseen : t.seenByWriter ≤ k)
    (hat : t.reader.published[k]? = some second) (hnotDone : t.writer.step ≠ .transferDone)
    {step : StreamerStep} (hstep : ActiveWriterStep step k) :
    (t.afterWrite k ⟨(t.writer.setSignal .running).to step, []⟩).Active setup := by
  apply h.writerPublishes hnotDone
  case hpublished => rfl
  case hring => exact h.ring_set hseen hat rfl rfl rfl rfl rfl
  case hhead => exact h.writerHead
  case hcount =>
    rw [List.append_nil]
    exact h.writerCount
  case hsum =>
    rw [List.append_nil]
    exact h.writerSum
  case htells => exact Or.inl rfl
  case hrunning => exact fun _ => rfl
  case hstep => exact hstep

theorem Transfer.Active.endOfData (h : t.Active setup) (hseen : t.seenByWriter ≤ k)
    (hat : t.reader.published[k]? = some second) (hstarted : 1 ≤ t.seenByWriter)
    (hstep : t.writer.step = .transferData) :
    (t.afterWrite k ⟨t.writer.endOfData, []⟩).Active setup := by
  have hrunning := h.writerRunning (Or.inr hstep)
  have hk : 1 ≤ k := Nat.le_trans hstarted hseen
  have hnotDone : t.writer.step ≠ .transferDone := by
    rw [hstep]
    decide
  have hcs : (t.afterWrite k
      ⟨t.writer.set { t.writer.signals with cs := t.writer.checksum }, []⟩).Active setup := by
    apply h.writerPublishes hnotDone
    case hpublished => rfl
    case hring => exact h.ring_set hseen hat rfl rfl rfl rfl rfl
    case hhead => exact h.writerHead
    case hcount =>
      rw [List.append_nil]
      exact h.writerCount
    case hsum =>
      rw [List.append_nil]
      exact h.writerSum
    case htells => exact Or.inl hrunning
    case hrunning => exact fun _ => hrunning
    case hstep => exact Or.inr (Or.inr ⟨Or.inl hstep, hk⟩)
  have hend : ((t.afterWrite k
      ⟨t.writer.set { t.writer.signals with cs := t.writer.checksum }, []⟩).afterWrite k
      ⟨t.writer.endOfData, []⟩).Active setup := by
    apply hcs.writerPublishes hnotDone
    case hpublished => rfl
    case hring => exact hcs.ring_set (le_refl k) hat rfl rfl rfl rfl rfl
    case hhead => exact h.writerHead
    case hcount =>
      rw [List.append_nil]
      exact hcs.writerCount
    case hsum =>
      rw [List.append_nil]
      exact hcs.writerSum
    case htells =>
      refine Or.inr ⟨rfl, rfl, ?_, ?_⟩
      · change t.writer.signals.count = ((t.written ++ []) ++ []).length
        rw [List.append_nil, List.append_nil]
        exact h.writerCount
      · change setup.SumIs ((t.written ++ []) ++ []) t.writer.checksum
        rw [List.append_nil, List.append_nil]
        exact h.writerSum
    case hrunning =>
      intro hstep
      rcases hstep with hstep | hstep <;> cases hstep
    case hstep => exact Or.inr (Or.inr ⟨Or.inr rfl, hk⟩)
  unfold Transfer.afterWrite at hend ⊢
  dsimp only at hend
  rw [List.append_nil, List.append_nil] at hend
  rw [List.append_nil]
  exact hend

/-- `ioc_streamer_write_internal` and the checksum. -/
theorem Transfer.Active.writeInternal (h : t.Active setup) (hseen : t.seenByWriter ≤ k)
    (hat : t.reader.published[k]? = some second) (hstarted : 1 ≤ t.seenByWriter)
    (hstep : t.writer.step = .transferData) (bytes : List UInt8) :
    (t.afterWrite k (setup.writeInternal t.writer bytes second.tail)).Active setup := by
  have hk : 1 ≤ k := Nat.le_trans hstarted hseen
  have hrunning := h.writerRunning (Or.inr hstep)
  have hactive : ActiveWriterStep t.writer.step k := Or.inr (Or.inr ⟨Or.inl hstep, hk⟩)
  have hnotDone : t.writer.step ≠ .transferDone := by
    rw [hstep]
    decide
  generalize hbytes : bytes.take (osInt bytes.length).toNat = taken
  have hprogress := h.ring.writer setup.bufSz_pos taken hseen (Transfer.ring_tail hat)
  have hring := h.ring.write setup.bufSz_pos taken hseen (Transfer.ring_tail hat)
  unfold StreamerSetup.writeInternal
  dsimp only
  rw [hbytes]
  change RingWriter.Progress _ t.writer.signals.buffer t.written taken
    (streamerWriteInternal t.writer.signals.buffer taken setup.bufSz t.writer.head second.tail)
    _ at hprogress
  unfold RingState.write at hring
  change RingState.Valid setup.bufSz
    (let writer := streamerWriteInternal t.writer.signals.buffer taken setup.bufSz
      t.writer.head second.tail
    { t.ring with
      buffer := writer.buffer
      head := writer.head
      heads :=
        if writer.nbytes ≠ 0 then
          t.ring.heads ++ [⟨writer.buffer, writer.head, (t.written ++ writer.moved).length⟩]
        else t.ring.heads
      seenTail := k
      written := t.written ++ writer.moved }) at hring
  generalize streamerWriteInternal t.writer.signals.buffer taken setup.bufSz t.writer.head
    second.tail = ring at hprogress hring
  dsimp only at hring ⊢
  by_cases hnone : ring.nbytes = 0
  · have hmoved : ring.moved = [] := by
      have hcount := hprogress.nbytes
      rw [hnone] at hcount
      rw [hprogress.moved, Int.natCast_eq_zero.mp hcount.symm, List.take_zero]
    have hlooks := h.writerLooks hseen hat (fun hdone => absurd hdone hnotDone)
      (fun _ => hrunning) hactive
    simp only [hnone, hmoved, ne_eq, not_true_eq_false, if_false, StreamerSetup.checksum,
      List.foldl_nil, ite_self]
    exact hlooks
  · simp only [ne_eq, hnone, not_false_eq_true, if_true] at hring ⊢
    have hlength : t.writer.signals.count + ring.moved.length =
        (t.written ++ ring.moved).length := by
      rw [h.writerCount, List.length_append]
    have hsum := h.writerSum.append ring.moved
    split_ifs with hdisabled
    all_goals
      apply h.writerPublishes hnotDone
      case hpublished => rfl
      case hring =>
        unfold Transfer.afterWrite Transfer.ring WriterEnd.set
        dsimp only
        rw [List.map_append, List.map_singleton, hlength]
        exact hring
      case hhead => rfl
      case hcount => exact hlength
      case htells => exact Or.inl hrunning
      case hrunning => exact fun _ => hrunning
      case hstep => exact hactive
    · intro henabled
      rw [hdisabled] at henabled
      cases henabled
    · exact hsum

theorem Transfer.Active.tail_bounds (h : t.Active setup)
    (hat : t.reader.published[k]? = some second) :
    ¬(second.tail < 0 ∨ (setup.bufSz : ℤ) ≤ second.tail) := by
  have hindex := (h.ring.publishedTail _ (List.mem_of_getElem? (Transfer.ring_tail hat))).1
  have hbounds := index_bounds setup.bufSz_pos hindex
  dsimp only at hbounds
  omega

theorem Transfer.Active.deviceWriteData (h : t.Active setup) (hseen : t.seenByWriter ≤ k)
    (horder : k ≤ k₁) (hfirst : t.reader.published[k]? = some first)
    (hsecond : t.reader.published[k₁]? = some second) (hstarted : 1 ≤ t.seenByWriter)
    (hstep : t.writer.step = .transferData) (data : Option (List UInt8)) :
    (t.afterWrite k₁ (setup.deviceWriteData t.writer undisturbedCall first.signal second.tail
      data)).Active setup := by
  have hrunning := h.reader_running (Nat.le_trans hstarted hseen) hfirst
  unfold StreamerSetup.deviceWriteData
  rw [hrunning, if_neg (by decide), if_neg (h.tail_bounds hsecond)]
  cases data with
  | none => exact h.endOfData (Nat.le_trans hseen horder) hsecond hstarted hstep
  | some bytes =>
      dsimp only
      rw [if_neg (fun hfailed => Bool.false_ne_true hfailed.2.2)]
      exact h.writeInternal (Nat.le_trans hseen horder) hsecond hstarted hstep bytes

theorem Transfer.Active.controllerWriteData (h : t.Active setup) (hseen : t.seenByWriter ≤ k)
    (horder : k ≤ k₁) (hfirst : t.reader.published[k]? = some first)
    (hsecond : t.reader.published[k₁]? = some second) (hstarted : 1 ≤ t.seenByWriter)
    (hstep : t.writer.step = .transferData) (data : Option (List UInt8)) :
    (t.afterWrite k₁ (setup.controllerWriteData t.writer undisturbedCall first.signal
      second.tail data)).Active setup := by
  have hrunning := h.reader_running (Nat.le_trans hstarted hseen) hfirst
  unfold StreamerSetup.controllerWriteData
  rw [hrunning, if_neg (by decide)]
  match data with
  | none => exact h.endOfData (Nat.le_trans hseen horder) hsecond hstarted hstep
  | some [] =>
      apply h.writerLooks (Nat.le_trans hseen horder) hsecond id
        (fun _ => h.writerRunning (Or.inr hstep))
      exact Or.inr (Or.inr ⟨Or.inl hstep, by omega⟩)
  | some (byte :: bytes) =>
      dsimp only
      rw [if_neg (h.tail_bounds hsecond)]
      exact h.writeInternal (Nat.le_trans hseen horder) hsecond hstarted hstep (byte :: bytes)

theorem Transfer.Active.deviceWriteStarts (h : t.Active setup) (hseen : t.seenByWriter ≤ k)
    (horder : k ≤ k₁) (hfirst : t.reader.published[k]? = some first)
    (hsecond : t.reader.published[k₁]? = some second) (hstep : t.writer.step = .initialized)
    (hsignal : first.signal = .running ∨ first.signal = .completed)
    (data : Option (List UInt8)) :
    (t.afterWrite k₁ (setup.deviceWriteData ((t.writer.setSignal .running).to .transferData)
      undisturbedCall first.signal second.tail data)).Active setup := by
  have hk : 1 ≤ k := by
    apply h.started_of_reader hfirst
    intro hidle
    rw [hidle] at hsignal
    rcases hsignal with hsignal | hsignal <;> cases hsignal
  have hnotDone : t.writer.step ≠ .transferDone := by
    rw [hstep]
    decide
  have hstarts := h.writerStarts hseen hfirst hnotDone
    (show ActiveWriterStep .transferData k from Or.inr (Or.inr ⟨Or.inl rfl, hk⟩))
  have hwrites := hstarts.deviceWriteData (le_refl k) horder hfirst hsecond hk rfl data
  unfold Transfer.afterWrite at hwrites ⊢
  dsimp only at hwrites
  rw [List.append_nil] at hwrites
  exact hwrites

/-- A controller, which has told that it is running, begins to write data. -/
theorem Transfer.Active.controllerWriteStarts (h : t.Active setup)
    (hseen : t.seenByWriter ≤ k) (horder : k ≤ k₁)
    (hfirst : t.reader.published[k]? = some first)
    (hsecond : t.reader.published[k₁]? = some second) (hstep : t.writer.step = .initialized2)
    (hsignal : first.signal = .running) (data : Option (List UInt8)) :
    (t.afterWrite k₁ (setup.controllerWriteData (t.writer.to .transferData)
      undisturbedCall first.signal second.tail data)).Active setup := by
  have hk : 1 ≤ k := by
    apply h.started_of_reader hfirst
    rw [hsignal]
    decide
  have hnotDone : t.writer.step = .transferDone → StreamerStep.transferData = .transferDone := by
    intro hdone
    rw [hstep] at hdone
    cases hdone
  have hlooks := h.writerLooks hseen hfirst hnotDone
    (fun _ => h.writerRunning (Or.inl hstep)) (Or.inr (Or.inr ⟨Or.inl rfl, hk⟩))
  have hwrites := hlooks.controllerWriteData (le_refl k) horder hfirst hsecond hk rfl data
  unfold Transfer.afterWrite at hwrites ⊢
  dsimp only at hwrites
  rw [List.append_nil] at hwrites
  exact hwrites

theorem Transfer.Active.deviceWrite (h : t.Active setup) (hseen : t.seenByWriter ≤ k)
    (horder : k ≤ k₁) (hfirst : t.reader.published[k]? = some first)
    (hsecond : t.reader.published[k₁]? = some second) {data : Option (List UInt8)}
    (hmeets : t.writer.step = .initialized →
      first.signal = .running ∨ first.signal = .completed) :
    (t.afterWrite k₁ (setup.deviceWrite t.writer undisturbedCall first.signal second.tail
      data)).Active setup := by
  have hk₁ : t.seenByWriter ≤ k₁ := Nat.le_trans hseen horder
  unfold StreamerSetup.deviceWrite
  rw [if_pos (Or.inl undisturbed_connected)]
  dsimp only
  rcases h.writerStep with hstep | hstep | ⟨hstep | hstep, hstarted⟩
  · have hsignal := hmeets hstep
    rw [hstep]
    dsimp only
    rw [if_neg (by tauto)]
    exact h.deviceWriteStarts hseen horder hfirst hsecond hstep hsignal data
  · rw [hstep]
    exact h.writerLooks hk₁ hsecond id (fun _ => h.writerRunning (Or.inl hstep))
      (Or.inr (Or.inl hstep))
  · rw [hstep]
    exact h.deviceWriteData hseen horder hfirst hsecond hstarted hstep data
  · have hrunning := h.reader_running (Nat.le_trans hstarted hseen) hfirst
    rw [hstep, hrunning]
    exact h.writerLooks hk₁ hsecond id h.writerRunning
      (Or.inr (Or.inr ⟨Or.inr hstep, Nat.le_trans hstarted hk₁⟩))

theorem Transfer.Active.controllerWrite (h : t.Active setup) (hseen : t.seenByWriter ≤ k)
    (horder : k ≤ k₁) (hfirst : t.reader.published[k]? = some first)
    (hsecond : t.reader.published[k₁]? = some second) {data : Option (List UInt8)} :
    (t.afterWrite k₁ (setup.controllerWrite t.writer undisturbedCall first.signal second.tail
      data)).Active setup := by
  have hk₁ : t.seenByWriter ≤ k₁ := Nat.le_trans hseen horder
  unfold StreamerSetup.controllerWrite
  rw [if_pos (Or.inl undisturbed_connected)]
  dsimp only
  rcases h.writerStep with hstep | hstep | ⟨hstep | hstep, hstarted⟩
  · have hnotDone : t.writer.step ≠ .transferDone := by
      rw [hstep]
      decide
    rw [hstep]
    exact h.writerStarts hk₁ hsecond hnotDone (Or.inr (Or.inl rfl))
  · rw [hstep]
    dsimp only
    rw [if_neg (by decide)]
    by_cases hsignal : first.signal = .running
    · rw [if_neg (fun hne => hne hsignal)]
      exact h.controllerWriteStarts hseen horder hfirst hsecond hstep hsignal data
    · rw [if_pos hsignal, if_neg (by decide)]
      exact h.writerLooks hk₁ hsecond id (fun _ => h.writerRunning (Or.inl hstep))
        (Or.inr (Or.inl hstep))
  · rw [hstep]
    exact h.controllerWriteData hseen horder hfirst hsecond hstarted hstep data
  · have hrunning := h.reader_running (Nat.le_trans hstarted hseen) hfirst
    rw [hstep, hrunning]
    exact h.writerLooks hk₁ hsecond id h.writerRunning
      (Or.inr (Or.inr ⟨Or.inr hstep, Nat.le_trans hstarted hk₁⟩))

end Writing

/-! ## Calls of the reading end -/

section Checking

variable (result : ReaderResult) (status : StreamerStatus) (cs : ℕ)

theorem StreamerSetup.checkRead_reader :
    ∃ checksum, (setup.checkRead result status cs).1 =
        { result.reader with checksum := checksum } ∧
      (setup.checkRead result status cs).2.1 = result.moved ∧
      ∀ bytes, setup.SumIs bytes result.reader.checksum →
        setup.SumIs (bytes ++ result.moved) checksum := by
  unfold StreamerSetup.checkRead
  split_ifs with hdisabled
  · refine ⟨result.reader.checksum, rfl, rfl, ?_⟩
    intro bytes _ henabled
    rw [hdisabled] at henabled
    cases henabled
  · exact ⟨_, rfl, rfl, fun bytes hsum => hsum.append result.moved⟩

theorem StreamerSetup.checkRead_step :
    (setup.checkRead result status cs).1.step = result.reader.step := by
  unfold StreamerSetup.checkRead
  split_ifs
  · rfl
  · rfl

theorem StreamerSetup.checkRead_success :
    (setup.checkRead result .success cs).2.2 = .success := by
  unfold StreamerSetup.checkRead
  split_ifs
  · rfl
  · rfl

theorem StreamerSetup.checkRead_nil (reader : ReaderEnd) :
    setup.checkRead ⟨reader, []⟩ .success cs = (reader, [], .success) := by
  unfold StreamerSetup.checkRead StreamerSetup.checksum
  split_ifs
  · rfl
  · rfl

theorem StreamerSetup.checkRead_completed {reader : ReaderEnd} {bytes : List UInt8}
    (hsum : setup.SumIs bytes reader.checksum) (hcs : setup.SumIs bytes cs) :
    setup.checkRead ⟨reader, []⟩ .completed cs = (reader, [], .completed) := by
  unfold StreamerSetup.checkRead
  by_cases hdisabled : setup.disableChecksum = true
  · rw [if_pos hdisabled]
  · have henabled := Bool.not_eq_true _ ▸ hdisabled
    have hsame : setup.checksum [] reader.checksum = cs := by
      rw [hsum henabled, hcs henabled]
      rfl
    rw [if_neg hdisabled]
    dsimp only
    rw [if_neg (fun hfails => hfails.2 hsame)]
    rfl

end Checking

def ActiveReaderStep (step : StreamerStep) (seen : ℕ) : Prop :=
  step = .initialized ∨ step = .initialized2 ∨ step = .transferData ∧ 1 ≤ seen

theorem Transfer.afterRead_afterRead (k k₁ : ℕ) (reader : ReaderEnd) (status : StreamerStatus)
    (result : ReaderEnd × List UInt8 × StreamerStatus) :
    (t.afterRead k (reader, [], status)).afterRead k₁ result = t.afterRead k₁ result := by
  unfold Transfer.afterRead
  dsimp only
  rw [List.append_nil]

section Reading

variable {k k₁ k₂ : ℕ} {first second third : WriterSignals}

theorem Transfer.Active.readerKeeps (h : t.Active setup)
    {result : ReaderEnd × List UInt8 × StreamerStatus}
    (hpublished : result.1.published = t.reader.published ∨
      result.1.published = t.reader.published ++ [result.1.signals] ∧
        result.1.signals.signal = .running)
    (hring : (t.afterRead k result).ring.Valid setup.bufSz)
    (htail : result.1.signals.tail = result.1.tail)
    (hcount : result.1.signals.count = (t.read ++ result.2.1).length)
    (hsum : setup.SumIs (t.read ++ result.2.1) result.1.checksum)
    (hstep : ActiveReaderStep result.1.step k)
    (hrunning : result.1.step = .initialized2 ∨ result.1.step = .transferData →
      result.1.signals.signal = .running)
    (hstatus : result.2.2 = .success) :
    (t.afterRead k result).Active setup := by
  constructor
  case ring => exact hring
  case writerHead => exact h.writerHead
  case writerCount => exact h.writerCount
  case readerTail => exact htail
  case readerCount => exact hcount
  case writerSum => exact h.writerSum
  case readerSum => exact hsum
  case writerIdle => exact h.writerIdle
  case readerIdle =>
    obtain ⟨initial, hinitial, hidle⟩ := h.readerIdle
    refine ⟨initial, ?_, hidle⟩
    change result.1.published[0]? = some initial
    rcases hpublished with hsame | ⟨hmore, -⟩
    · rw [hsame, hinitial]
    · rw [hmore]
      exact History.getElem?_append_of_some hinitial
  case writerTells => exact h.writerTells
  case completedLast => exact h.completedLast
  case writerLast => exact h.writerLast
  case readerTells =>
    intro i signals hi hat
    change result.1.published[i]? = some signals at hat
    rcases hpublished with hsame | ⟨hmore, hrunning⟩
    · rw [hsame] at hat
      exact h.readerTells i signals hi hat
    · rw [hmore, List.getElem?_append] at hat
      split_ifs at hat
      · exact h.readerTells i signals hi hat
      · rw [List.getElem?_singleton] at hat
        split_ifs at hat
        obtain rfl := Option.some.inj hat
        exact hrunning
  case writerStep => exact h.writerStep
  case readerStep => exact hstep
  case writerRunning => exact h.writerRunning
  case readerRunning => exact hrunning
  case lastRead => exact hstatus

/-- The reading end only looks at the signals of the other end, and perhaps goes
on to its next step. -/
theorem Transfer.Active.readerLooks (h : t.Active setup) (hseen : t.seenByReader ≤ k)
    (hat : t.writer.published[k]? = some third) {step : StreamerStep}
    (hstep : ActiveReaderStep step k)
    (hrunning : step = .initialized2 ∨ step = .transferData →
      t.reader.signals.signal = .running) :
    (t.afterRead k (t.reader.to step, [], .success)).Active setup := by
  have hring := h.ring.seeHead hseen (Transfer.ring_head hat)
  apply h.readerKeeps
  case hpublished => exact Or.inl rfl
  case hring =>
    unfold Transfer.afterRead
    rw [List.append_nil]
    exact hring
  case htail => exact h.readerTail
  case hcount =>
    rw [List.append_nil]
    exact h.readerCount
  case hsum =>
    rw [List.append_nil]
    exact h.readerSum
  case hstep => exact hstep
  case hrunning => exact hrunning
  case hstatus => rfl

theorem Transfer.Active.readerStarts (h : t.Active setup) (hseen : t.seenByReader ≤ k)
    (hat : t.writer.published[k]? = some third) {step : StreamerStep}
    (hstep : ActiveReaderStep step k) :
    (t.afterRead k ((t.reader.setSignal .running).to step, [], .success)).Active setup := by
  have hring := (h.ring.seeHead hseen (Transfer.ring_head hat)).publishTail
  have hlast : PublishedTail.mk t.reader.signals.tail t.reader.signals.count =
      ⟨t.reader.tail, t.read.length⟩ := by
    rw [h.readerTail, h.readerCount]
  apply h.readerKeeps
  case hpublished => exact Or.inr ⟨rfl, rfl⟩
  case hring =>
    unfold Transfer.afterRead Transfer.ring ReaderEnd.to ReaderEnd.setSignal ReaderEnd.set
    dsimp only
    rw [List.append_nil, List.map_append, List.map_singleton, hlast]
    exact hring
  case htail => exact h.readerTail
  case hcount =>
    rw [List.append_nil]
    exact h.readerCount
  case hsum =>
    rw [List.append_nil]
    exact h.readerSum
  case hstep => exact hstep
  case hrunning => exact fun _ => rfl
  case hstatus => rfl

theorem Transfer.Active.head_bounds (h : t.Active setup)
    (hat : t.writer.published[k]? = some second) :
    ¬(second.head < 0 ∨ (setup.bufSz : ℤ) ≤ second.head) := by
  have hindex := (h.ring.published _ (List.mem_of_getElem? (Transfer.ring_head hat))).1
  have hbounds := index_bounds setup.bufSz_pos hindex
  dsimp only at hbounds
  omega

theorem streamerReadInternal_connected (view : Mem) (sz n head tail : ℤ) :
    ∃ reader, streamerReadInternal view sz n head tail (true, true) = some reader := by
  have hend : ∀ reader : RingReader, ∃ after, reader.readToEnd view sz head true = some after := by
    intro reader
    unfold RingReader.readToEnd
    simp only [if_true]
    split_ifs <;> exact ⟨_, rfl⟩
  have hhead : ∀ reader : RingReader, ∃ after, reader.readToHead view head true = some after := by
    intro reader
    unfold RingReader.readToHead
    simp only [if_true]
    split_ifs <;> exact ⟨_, rfl⟩
  obtain ⟨between, hbetween⟩ := hend ⟨tail, n, [], 0⟩
  obtain ⟨after, hafter⟩ := hhead between
  refine ⟨after, ?_⟩
  unfold streamerReadInternal
  dsimp only
  rw [hbetween]
  exact hafter

theorem Transfer.ring_views {view : Mem} (h : t.Views setup k view) :
    t.ring.Views setup.bufSz k view := by
  intro i hi
  obtain ⟨j, signals, hkj, hat, hcell⟩ := h i hi
  exact ⟨j, _, hkj, Transfer.ring_head hat, hcell⟩

def ReaderEnd.take (reader : ReaderEnd) (ring : RingReader) : ReaderEnd :=
  if ring.nbytes ≠ 0 then
    { reader with tail := ring.ltail }.set
      { reader.signals with
        tail := ring.ltail
        count := reader.signals.count + ring.moved.length }
  else reader

theorem ReaderEnd.take_checksum (reader : ReaderEnd) (ring : RingReader) :
    (reader.take ring).checksum = reader.checksum := by
  unfold ReaderEnd.take
  split_ifs <;> rfl

theorem ReaderEnd.take_step (reader : ReaderEnd) (ring : RingReader) :
    (reader.take ring).step = reader.step := by
  unfold ReaderEnd.take
  split_ifs <;> rfl

/-- A read before the other end has told that the transfer is completed. -/
theorem Transfer.Active.readerTakes (h : t.Active setup) (hseen : t.seenByReader ≤ k)
    (horder : k ≤ k₁) (hsecond : t.writer.published[k]? = some second)
    (hthird : t.writer.published[k₁]? = some third) {view : Mem}
    (hview : t.Views setup k view) (hstarted : 1 ≤ t.seenByReader)
    (hstep : t.reader.step = .transferData) {n : ℤ} {ring : RingReader}
    (hread : streamerReadInternal view setup.bufSz n second.head t.reader.tail (true, true) =
      some ring) (cs : ℕ) :
    (t.afterRead k₁ (setup.checkRead ⟨t.reader.take ring, ring.moved⟩ .success cs)).Active
      setup := by
  have hsignal := h.readerRunning (Or.inr hstep)
  have hviews := Transfer.ring_views hview
  have hhead := Transfer.ring_head hsecond
  obtain ⟨hprogress, -⟩ := h.ring.reader setup.bufSz_pos hseen hhead hviews hread
  have hvalid := h.ring.readFrom setup.bufSz_pos n false (true, true) hseen hhead hviews
  have hmovedNone : ring.nbytes = 0 → ring.moved = [] := by
    intro hnone
    have hcount := hprogress.nbytes
    rw [hnone] at hcount
    rw [hprogress.moved, Int.natCast_eq_zero.mp hcount.symm, List.take_zero]
  have hring : RingState.Valid setup.bufSz
      { t.ring with
        seenHead := k₁
        tail := (t.reader.take ring).tail
        tails := (t.reader.take ring).published.map fun signals => ⟨signals.tail, signals.count⟩
        read := t.read ++ ring.moved } := by
    unfold RingState.readFrom at hvalid
    have hread' : streamerReadInternal view setup.bufSz n
        (PublishedHead.mk second.buffer second.head second.count).head t.ring.tail (true, true) =
        some ring := hread
    rw [hread'] at hvalid
    dsimp only at hvalid
    have hlast : ∀ state : RingState, state.Valid setup.bufSz → state.seenHead = k →
        state.heads = t.ring.heads → RingState.Valid setup.bufSz { state with seenHead := k₁ } := by
      intro state hstate hk hheads
      apply hstate.seeHead
      · rw [hk]
        exact horder
      · rw [hheads]
        exact Transfer.ring_head hthird
    unfold ReaderEnd.take
    by_cases hnone : ring.nbytes = 0
    · rw [if_neg (fun hsome => hsome.1 hnone)] at hvalid
      rw [if_neg (fun hsome => hsome hnone), hmovedNone hnone, List.append_nil]
      exact hlast { t.ring with seenHead := k } hvalid rfl rfl
    · rw [if_pos ⟨hnone, rfl⟩] at hvalid
      rw [if_pos hnone]
      have hcount : t.reader.signals.count + ring.moved.length =
          (t.read ++ ring.moved).length := by
        rw [h.readerCount, List.length_append]
      unfold ReaderEnd.set
      dsimp only
      rw [List.map_append, List.map_singleton, hcount]
      exact hlast _ hvalid rfl rfl
  obtain ⟨checksum, hreader, hmoved, hsums⟩ :=
    @StreamerSetup.checkRead_reader setup ⟨t.reader.take ring, ring.moved⟩ .success cs
  apply h.readerKeeps
  case hpublished =>
    rw [hreader]
    dsimp only
    unfold ReaderEnd.take
    split_ifs
    · exact Or.inr ⟨rfl, hsignal⟩
    · exact Or.inl rfl
  case hring =>
    unfold Transfer.afterRead
    rw [hreader, hmoved]
    exact hring
  case htail =>
    rw [hreader]
    dsimp only
    unfold ReaderEnd.take
    split_ifs
    · rfl
    · exact h.readerTail
  case hcount =>
    rw [hreader, hmoved]
    dsimp only
    unfold ReaderEnd.take
    split_ifs with hnone
    · rw [List.length_append, ← h.readerCount]
      rfl
    · rw [hmovedNone (not_not.mp hnone), List.append_nil]
      exact h.readerCount
  case hsum =>
    rw [hreader, hmoved]
    apply hsums
    rw [ReaderEnd.take_checksum]
    exact h.readerSum
  case hstep =>
    rw [hreader]
    dsimp only
    rw [ReaderEnd.take_step]
    exact Or.inr (Or.inr ⟨hstep, by omega⟩)
  case hrunning =>
    rw [hreader]
    dsimp only
    unfold ReaderEnd.take
    split_ifs
    · exact fun _ => hsignal
    · exact fun _ => hsignal
  case hstatus => exact StreamerSetup.checkRead_success _ cs

theorem StreamerSetup.unread_eq {head tail : ℕ} (htail : tail ≤ head)
    (hspace : head < tail + setup.bufSz) :
    setup.unread ((head % setup.bufSz : ℕ) : ℤ) ((tail % setup.bufSz : ℕ) : ℤ) =
      ((head - tail : ℕ) : ℤ) := by
  have hlt := Nat.mod_lt tail setup.bufSz_pos
  unfold StreamerSetup.unread
  by_cases horder : tail % setup.bufSz ≤ head % setup.bufSz
  · have hdistance := Ring.sub_of_mod_le setup.bufSz_pos htail hspace horder
    rw [if_neg (by omega)]
    omega
  · have hdistance := Ring.sub_of_lt_mod setup.bufSz_pos htail hspace (Nat.lt_of_not_le horder)
    rw [if_pos (by omega)]
    omega

/-- A writing end which has told that the transfer is completed has told all. -/
theorem Transfer.Active.told (h : t.Active setup) (hfirst : t.writer.published[k]? = some first)
    (hcompleted : first.signal = .completed) :
    t.writer.step = .transferDone ∧ first.count = t.written.length ∧
      setup.SumIs t.written first.cs ∧ first = t.writer.signals ∧
      ∀ j signals, k ≤ j → t.writer.published[j]? = some signals → signals = first := by
  have hlast := h.completedLast k first hfirst hcompleted
  have hsame : ∀ j signals, k ≤ j → t.writer.published[j]? = some signals →
      signals = first := by
    intro j signals hj hat
    obtain ⟨hlt, -⟩ := List.getElem?_eq_some_iff.mp hat
    have hjk : j = k := by omega
    rw [hjk, hfirst] at hat
    exact (Option.some.inj hat).symm
  have hstarted : 1 ≤ k := by
    apply h.started_of_writer hfirst
    rw [hcompleted]
    decide
  rcases h.writerTells k first hstarted hfirst with hrunning | ⟨-, hdone, hcount, hsum⟩
  · rw [hrunning] at hcompleted
    cases hcompleted
  · exact ⟨hdone, hcount, hsum, h.writerLast k first hfirst hlast, hsame⟩

theorem Transfer.Active.readerDrains (h : t.Active setup) (hseen : t.seenByReader ≤ k)
    (hfirst : t.writer.published[k]? = some first) (hcompleted : first.signal = .completed)
    (horder : k ≤ k₁) {view : Mem} (hview : t.Views setup k view) {n : ℤ} {ring : RingReader}
    (hmeets : setup.unread first.head t.reader.tail ≤ n)
    (hread : streamerReadInternal view setup.bufSz n first.head t.reader.tail (true, true) =
      some ring) {reader : ReaderEnd} (hchecksum : reader.checksum = t.reader.checksum)
    (hstep : reader.step = .transferDone ∨ reader.step = .transferDone2) (cs : ℕ) :
    (t.afterRead k₁ (setup.checkRead ⟨reader, ring.moved⟩ .success cs)).Drained setup := by
  obtain ⟨hdone, hcount, hsum, hsignals, hsame⟩ := h.told hfirst hcompleted
  have hhead := Transfer.ring_head hfirst
  obtain ⟨hprogress, hle⟩ := h.ring.reader setup.bufSz_pos hseen hhead
    (Transfer.ring_views hview) hread
  obtain ⟨tail, htail, hroom⟩ := h.ring.seenTail
  have htailCount := (h.ring.publishedTail tail (List.mem_of_getElem? htail)).2
  have hindex := (h.ring.published _ (List.mem_of_getElem? hhead)).1
  have hleft : setup.unread first.head t.reader.tail =
      ((t.written.length - t.read.length : ℕ) : ℤ) := by
    have hheadIndex : first.head = ((t.written.length % setup.bufSz : ℕ) : ℤ) := by
      rw [← hcount]
      exact hindex
    have htailIndex : t.reader.tail = ((t.read.length % setup.bufSz : ℕ) : ℤ) := h.ring.tail
    rw [hheadIndex, htailIndex]
    apply StreamerSetup.unread_eq
    · exact h.ring.length_read_le
    · change t.written.length < tail.count + setup.bufSz at hroom
      change tail.count ≤ t.read.length at htailCount
      omega
  have hall : t.read ++ ring.moved = t.written := by
    have hbefore : t.read = t.written.take t.read.length := h.ring.read
    have hmoved : ring.moved = t.written.drop t.read.length := by
      rw [hprogress.moved]
      apply List.take_of_length_le
      change (t.written.drop t.read.length).length ≤ readCount n first.count t.read.length
      rw [hleft] at hmeets
      rw [List.length_drop, hcount]
      unfold readCount
      omega
    rw [hmoved]
    nth_rewrite 1 [hbefore]
    exact List.take_append_drop _ _
  obtain ⟨checksum, hreader, hmoved, hsums⟩ :=
    @StreamerSetup.checkRead_reader setup ⟨reader, ring.moved⟩ .success cs
  constructor
  case read =>
    unfold Transfer.afterRead
    rw [hmoved]
    exact hall
  case writerStep => exact Or.inl hdone
  case readerStep =>
    unfold Transfer.afterRead
    rw [hreader]
    rcases hstep with hstep | hstep
    · exact Or.inl hstep
    · exact Or.inr (Or.inl hstep)
  case cs =>
    unfold Transfer.afterRead
    rw [← hsignals]
    exact hsum
  case seenCs =>
    intro j signals hj hat
    rw [hsame j signals (Nat.le_trans horder hj) hat]
    exact hsum
  case readerSum =>
    unfold Transfer.afterRead
    rw [hreader, hmoved]
    apply hsums
    rw [hchecksum]
    exact h.readerSum
  case lastRead => exact Or.inl (StreamerSetup.checkRead_success _ cs)

/-- What a read in the step `IOC_SSTEP_TRANSFER_DATA` leads to. -/
theorem Transfer.Active.readData (h : t.Active setup) (hseen : t.seenByReader ≤ k)
    (horder : k ≤ k₁) (horder' : k₁ ≤ k₂) (hfirst : t.writer.published[k]? = some first)
    (hsecond : t.writer.published[k₁]? = some second)
    (hthird : t.writer.published[k₂]? = some third) {view : Mem}
    (hview : t.Views setup k₁ view) (hstarted : 1 ≤ t.seenByReader)
    (hstep : t.reader.step = .transferData) {n : ℤ}
    (hmeets : first.signal = .completed → setup.unread second.head t.reader.tail ≤ osInt n)
    (done : ReaderEnd → ReaderEnd)
    (hchecksum : ∀ reader, (done reader).checksum = reader.checksum)
    (hdone : ∀ reader, (done reader).step = .transferDone ∨
      (done reader).step = .transferDone2) (cs : ℕ) :
    let result := setup.readData t.reader undisturbedCall
      ⟨first.signal, second.head, view, (true, true)⟩ n done
    result.reader.step = .transferData ∧
        (t.afterRead k₂ (setup.checkRead result .success cs)).Active setup ∨
      (∃ reader, result.reader = done reader) ∧
        (t.afterRead k₂ (setup.checkRead result .success cs)).Drained setup := by
  obtain ⟨ring, hread⟩ :=
    streamerReadInternal_connected view setup.bufSz (osInt n) second.head t.reader.tail
  have hk : 1 ≤ k := Nat.le_trans hstarted hseen
  have hsignal : first.signal = .running ∨ first.signal = .completed := by
    rcases h.writerTells k first hk hfirst with hrunning | ⟨hcompleted, -⟩
    · exact Or.inl hrunning
    · exact Or.inr hcompleted
  unfold StreamerSetup.readData
  dsimp only
  rw [if_neg (by rcases hsignal with hsignal | hsignal <;> rw [hsignal] <;> decide),
    if_neg (h.head_bounds hsecond), hread]
  dsimp only
  rcases hsignal with hrunning | hcompleted
  · left
    rw [if_pos hrunning, if_neg (fun hfailed => Bool.false_ne_true hfailed.2)]
    constructor
    · change (t.reader.take ring).step = _
      rw [ReaderEnd.take_step, hstep]
    · exact h.readerTakes (Nat.le_trans hseen horder) horder' hsecond hthird hview hstarted hstep
        hread cs
  · right
    rw [if_neg (by rw [hcompleted]; decide)]
    refine ⟨⟨_, rfl⟩, ?_⟩
    have hsame := (h.told hfirst hcompleted).2.2.2.2 k₁ second horder hsecond
    rw [hsame] at hread hsecond
    rw [hsame] at hmeets
    apply h.readerDrains (Nat.le_trans hseen horder) hsecond hcompleted horder' hview
      (hmeets hcompleted) hread
    · rw [hchecksum]
      exact t.reader.take_checksum ring
    · exact hdone _

theorem Transfer.Active.controllerRead (h : t.Active setup) (hseen : t.seenByReader ≤ k)
    (horder : k ≤ k₁) (horder' : k₁ ≤ k₂) (hfirst : t.writer.published[k]? = some first)
    (hsecond : t.writer.published[k₁]? = some second)
    (hthird : t.writer.published[k₂]? = some third) {view : Mem}
    (hview : t.Views setup k₁ view) {n : ℤ}
    (hmeets : first.signal = .completed → t.reader.step = .transferData →
      setup.unread second.head t.reader.tail ≤ osInt n) (cs : ℕ) :
    let result := setup.controllerRead t.reader undisturbedCall
      ⟨first.signal, second.head, view, (true, true)⟩ n
    let after := t.afterRead k₂
      (setup.checkRead result (controllerReadStatus result.reader.step) cs)
    after.Active setup ∨ after.Drained setup := by
  have hk₂ : t.seenByReader ≤ k₂ := by omega
  unfold StreamerSetup.controllerRead
  rw [if_pos (Or.inl undisturbed_connected)]
  dsimp only
  rcases h.readerStep with hstep | hstep | ⟨hstep, hstarted⟩
  · left
    rw [hstep]
    dsimp only
    change (t.afterRead k₂ (setup.checkRead
      ⟨(t.reader.setSignal .running).to .initialized2, []⟩ .success cs)).Active setup
    rw [StreamerSetup.checkRead_nil]
    exact h.readerStarts hk₂ hthird (Or.inr (Or.inl rfl))
  · left
    rw [hstep]
    dsimp only
    have hrunning := h.readerRunning (Or.inl hstep)
    by_cases hsignal : first.signal ≠ .running ∧ first.signal ≠ .completed
    · rw [if_pos hsignal, if_neg (by decide), hstep]
      change (t.afterRead k₂ (setup.checkRead ⟨t.reader.to t.reader.step, []⟩ .success cs)).Active
        setup
      rw [StreamerSetup.checkRead_nil]
      exact h.readerLooks hk₂ hthird (Or.inr (Or.inl hstep)) (fun _ => hrunning)
    · have hstarted : 1 ≤ k₂ := by
        have hk : 1 ≤ k := by
          apply h.started_of_writer hfirst
          intro hidle
          rw [hidle] at hsignal
          exact absurd (by decide) hsignal
        omega
      rw [if_neg hsignal]
      change (t.afterRead k₂ (setup.checkRead ⟨t.reader.to .transferData, []⟩ .success cs)).Active
        setup
      rw [StreamerSetup.checkRead_nil]
      exact h.readerLooks hk₂ hthird (Or.inr (Or.inr ⟨rfl, hstarted⟩)) (fun _ => hrunning)
  · rw [hstep]
    dsimp only
    have hdata := h.readData hseen horder horder' hfirst hsecond hthird hview hstarted hstep
      (fun hcompleted => hmeets hcompleted hstep)
      (fun reader => (reader.setSignal .idle).to .transferDone2) (fun _ => rfl)
      (fun _ => Or.inr rfl) cs
    dsimp only at hdata
    rcases hdata with ⟨hsame, hactive⟩ | ⟨⟨reader, hreader⟩, hdrained⟩
    · left
      rw [hsame]
      exact hactive
    · right
      rw [hreader]
      exact hdrained

theorem Transfer.Active.deviceReadStarts (h : t.Active setup) (hseen : t.seenByReader ≤ k)
    (hfirst : t.writer.published[k]? = some first)
    (hsignal : first.signal = .running ∨ first.signal = .completed) :
    1 ≤ k ∧ (t.afterRead k ((t.reader.setSignal .running).to .transferData, [], .success)).Active
      setup := by
  have hk : 1 ≤ k := by
    apply h.started_of_writer hfirst
    intro hidle
    rw [hidle] at hsignal
    rcases hsignal with hsignal | hsignal <;> cases hsignal
  exact ⟨hk, h.readerStarts hseen hfirst (Or.inr (Or.inr ⟨rfl, hk⟩))⟩

theorem Transfer.Active.deviceRead (h : t.Active setup) (hseen : t.seenByReader ≤ k)
    (horder : k ≤ k₁) (horder' : k₁ ≤ k₂) (hfirst : t.writer.published[k]? = some first)
    (hsecond : t.writer.published[k₁]? = some second)
    (hthird : t.writer.published[k₂]? = some third) {view : Mem}
    (hview : t.Views setup k₁ view) {n : ℤ} (hnever : t.reader.step ≠ .initialized2)
    (hstarts : t.reader.step = .initialized →
      first.signal = .running ∨ first.signal = .completed)
    (hmeets : first.signal = .completed →
      t.reader.step = .transferData ∨ t.reader.step = .initialized →
      setup.unread second.head t.reader.tail ≤ osInt n) (cs : ℕ) :
    let result := setup.deviceRead t.reader undisturbedCall
      ⟨first.signal, second.head, view, (true, true)⟩ n
    let after := t.afterRead k₂ (setup.checkRead result (deviceStatus result.reader.step) cs)
    (after.Active setup ∨ after.Drained setup) ∧ after.reader.step ≠ .initialized2 ∧
      after.reader.step ≠ .transferDone2 := by
  have hk₂ : t.seenByReader ≤ k₂ := by omega
  unfold StreamerSetup.deviceRead
  rw [if_pos (Or.inl undisturbed_connected)]
  dsimp only
  rcases h.readerStep with hstep | hstep | ⟨hstep, hstarted⟩
  · have hsignal := hstarts hstep
    obtain ⟨hk, hactive⟩ := h.deviceReadStarts hseen hfirst hsignal
    rw [hstep]
    dsimp only
    rw [if_neg (by tauto)]
    have hdata := hactive.readData (le_refl k) horder horder' hfirst hsecond hthird hview hk rfl
      (fun hcompleted => hmeets hcompleted (Or.inr hstep))
      (fun reader => reader.to .transferDone) (fun _ => rfl) (fun _ => Or.inl rfl) cs
    dsimp only at hdata
    rw [Transfer.afterRead_afterRead] at hdata
    rcases hdata with ⟨hsame, hactive⟩ | ⟨⟨reader, hreader⟩, hdrained⟩
    · change (setup.readData ((t.reader.setSignal .running).to .transferData) _ _ _ _).reader.step =
        _ at hsame
      rw [hsame]
      refine ⟨Or.inl hactive, ?_⟩
      unfold Transfer.afterRead
      rw [StreamerSetup.checkRead_step, hsame]
      constructor <;> decide
    · change (setup.readData ((t.reader.setSignal .running).to .transferData) _ _ _ _).reader =
        _ at hreader
      rw [hreader]
      refine ⟨Or.inr hdrained, ?_⟩
      unfold Transfer.afterRead
      rw [StreamerSetup.checkRead_step, hreader]
      constructor <;> exact fun hstep => by cases hstep
  · exact absurd hstep hnever
  · rw [hstep]
    dsimp only
    have hdata := h.readData hseen horder horder' hfirst hsecond hthird hview hstarted hstep
      (fun hcompleted => hmeets hcompleted (Or.inl hstep))
      (fun reader => reader.to .transferDone) (fun _ => rfl) (fun _ => Or.inl rfl) cs
    dsimp only at hdata
    rcases hdata with ⟨hsame, hactive⟩ | ⟨⟨reader, hreader⟩, hdrained⟩
    · rw [hsame]
      refine ⟨Or.inl hactive, ?_⟩
      unfold Transfer.afterRead
      rw [StreamerSetup.checkRead_step, hsame]
      constructor <;> decide
    · rw [hreader]
      refine ⟨Or.inr hdrained, ?_⟩
      unfold Transfer.afterRead
      rw [StreamerSetup.checkRead_step, hreader]
      constructor <;> exact fun hstep => by cases hstep

end Reading

/-! ## After the reading end has read all -/

section Draining

variable {k : ℕ}

theorem Transfer.Drained.writerKeeps (h : t.Drained setup) {writer : WriterEnd}
    (hstep : writer.step = .transferDone ∨ writer.step = .allCompleted)
    (hcs : writer.signals.cs = t.writer.signals.cs) {more : List WriterSignals}
    (hpublished : writer.published = t.writer.published ++ more)
    (hmore : ∀ signals ∈ more, signals.cs = t.writer.signals.cs) :
    (t.afterWrite k ⟨writer, []⟩).Drained setup := by
  unfold Transfer.afterWrite
  rw [List.append_nil]
  constructor
  case read => exact h.read
  case writerStep => exact hstep
  case readerStep => exact h.readerStep
  case cs =>
    dsimp only
    rw [hcs]
    exact h.cs
  case seenCs =>
    intro j signals hj hat
    dsimp only at hat
    rw [hpublished, List.getElem?_append] at hat
    split_ifs at hat
    · exact h.seenCs j signals hj hat
    · rw [hmore signals (List.mem_of_getElem? hat)]
      exact h.cs
  case readerSum => exact h.readerSum
  case lastRead => exact h.lastRead

theorem Transfer.Drained.write (h : t.Drained setup) (signal : StreamerState) (tail : ℤ)
    (data : Option (List UInt8)) :
    (t.afterWrite k (setup.write direction t.writer signal tail data)).Drained setup := by
  have hstays : (t.afterWrite k ⟨t.writer, []⟩).Drained setup :=
    h.writerKeeps h.writerStep rfl (List.append_nil _).symm (by simp)
  unfold StreamerSetup.write
  cases direction with
  | fromDevice =>
      dsimp only
      unfold StreamerSetup.deviceWrite
      rw [if_pos (Or.inl undisturbed_connected)]
      dsimp only
      rcases h.writerStep with hstep | hstep
      · rw [hstep]
        dsimp only
        split_ifs
        · exact hstays
        · apply h.writerKeeps
          case hstep => exact Or.inr rfl
          case hcs => rfl
          case hpublished => exact List.append_assoc _ _ _
          case hmore =>
            intro signals hsignals
            rcases List.mem_append.mp hsignals with hmem | hmem
            · rw [List.mem_singleton.mp hmem]
            · rw [List.mem_singleton.mp hmem]
              rfl
      · rw [hstep]
        exact hstays
  | toDevice =>
      dsimp only
      unfold StreamerSetup.controllerWrite
      rw [if_pos (Or.inl undisturbed_connected)]
      dsimp only
      rcases h.writerStep with hstep | hstep
      · rw [hstep]
        dsimp only
        split_ifs
        · exact hstays
        · apply h.writerKeeps
          case hstep => exact Or.inr rfl
          case hcs => rfl
          case hpublished => rfl
          case hmore =>
            intro signals hsignals
            rw [List.mem_singleton.mp hsignals]
      · rw [hstep]
        exact hstays

theorem Transfer.Drained.readerKeeps (h : t.Drained setup) {reader : ReaderEnd}
    {status : StreamerStatus} (hseen : t.seenByReader ≤ k)
    (hstep : reader.step = .transferDone ∨ reader.step = .transferDone2 ∨
      reader.step = .allCompleted)
    (hchecksum : reader.checksum = t.reader.checksum)
    (hstatus : status = .success ∨ status = .completed) :
    (t.afterRead k (reader, [], status)).Drained setup := by
  unfold Transfer.afterRead
  rw [List.append_nil]
  constructor
  case read => exact h.read
  case writerStep => exact h.writerStep
  case readerStep => exact hstep
  case cs => exact h.cs
  case seenCs => exact fun j signals hj hat => h.seenCs j signals (Nat.le_trans hseen hj) hat
  case readerSum =>
    dsimp only
    rw [hchecksum]
    exact h.readerSum
  case lastRead => exact hstatus

theorem Transfer.Drained.readerCompletes (h : t.Drained setup) {third : WriterSignals}
    (hseen : t.seenByReader ≤ k) (hthird : t.writer.published[k]? = some third)
    {reader : ReaderEnd} (hstep : reader.step = .allCompleted)
    (hchecksum : reader.checksum = t.reader.checksum) :
    (t.afterRead k (setup.checkRead ⟨reader, []⟩ .completed third.cs)).Drained setup := by
  have hsum : setup.SumIs t.written reader.checksum := by
    rw [hchecksum, ← h.read]
    exact h.readerSum
  rw [StreamerSetup.checkRead_completed third.cs hsum (h.seenCs k third hseen hthird)]
  exact h.readerKeeps hseen (Or.inr (Or.inr hstep)) hchecksum (Or.inr rfl)

theorem Transfer.Drained.readerWaits (h : t.Drained setup) (hseen : t.seenByReader ≤ k)
    {reader : ReaderEnd} (cs : ℕ)
    (hstep : reader.step = .transferDone ∨ reader.step = .transferDone2)
    (hchecksum : reader.checksum = t.reader.checksum) :
    (t.afterRead k (setup.checkRead ⟨reader, []⟩ .success cs)).Drained setup := by
  rw [StreamerSetup.checkRead_nil]
  apply h.readerKeeps hseen _ hchecksum (Or.inl rfl)
  rcases hstep with hstep | hstep
  · exact Or.inl hstep
  · exact Or.inr (Or.inl hstep)

theorem Transfer.Drained.controllerRead (h : t.Drained setup) {third : WriterSignals}
    (hseen : t.seenByReader ≤ k) (hthird : t.writer.published[k]? = some third)
    (seen : WriterSeen) (n : ℤ) :
    let result := setup.controllerRead t.reader undisturbedCall seen n
    (t.afterRead k (setup.checkRead result (controllerReadStatus result.reader.step)
      third.cs)).Drained setup := by
  unfold StreamerSetup.controllerRead
  rw [if_pos (Or.inl undisturbed_connected)]
  dsimp only
  rcases h.readerStep with hstep | hstep | hstep
  · rw [hstep]
    exact h.readerWaits hseen third.cs (Or.inr rfl) rfl
  · rw [hstep]
    dsimp only
    split_ifs
    · rw [hstep]
      exact h.readerWaits hseen third.cs (Or.inr hstep) rfl
    · exact h.readerCompletes hseen hthird rfl rfl
  · simp only [hstep]
    exact h.readerCompletes hseen hthird hstep rfl

theorem Transfer.Drained.deviceRead (h : t.Drained setup) {third : WriterSignals}
    (hseen : t.seenByReader ≤ k) (hthird : t.writer.published[k]? = some third)
    (hnever : t.reader.step ≠ .transferDone2) (seen : WriterSeen) (n : ℤ) :
    let result := setup.deviceRead t.reader undisturbedCall seen n
    (t.afterRead k (setup.checkRead result (deviceStatus result.reader.step)
      third.cs)).Drained setup ∧ result.reader.step = .allCompleted := by
  unfold StreamerSetup.deviceRead
  rw [if_pos (Or.inl undisturbed_connected)]
  dsimp only
  rcases h.readerStep with hstep | hstep | hstep
  · rw [hstep]
    exact ⟨h.readerCompletes hseen hthird rfl rfl, rfl⟩
  · exact absurd hstep hnever
  · simp only [hstep]
    exact ⟨h.readerCompletes hseen hthird hstep rfl, trivial⟩

end Draining

/-! ## Runs -/

/-- A device has no steps in which it waits for the other end to start or to
finish. -/
def Transfer.OwnSteps (direction : StreamDirection) (t : Transfer) : Prop :=
  direction = .toDevice → t.reader.step ≠ .initialized2 ∧ t.reader.step ≠ .transferDone2

def Transfer.Valid (setup : StreamerSetup) (direction : StreamDirection) (t : Transfer) : Prop :=
  (t.Active setup ∨ t.Drained setup) ∧ t.OwnSteps direction

theorem Transfer.Valid.start (h : TransferStart setup t) : t.Valid setup direction := by
  obtain ⟨buffer, rfl⟩ := h
  have hring : RingStart (Transfer.ring ⟨⟨.initialized, 0, setup.checksumInit,
      ⟨.idle, 0, buffer, 0, 0⟩, [⟨.idle, 0, buffer, 0, 0⟩]⟩,
      ⟨.initialized, 0, setup.checksumInit, ⟨.idle, 0, 0⟩, [⟨.idle, 0, 0⟩]⟩,
      0, 0, [], [], .success⟩) := ⟨buffer, rfl⟩
  have hnothing : ∀ {α : Type} (only : α) (k : ℕ) (signals : α), 1 ≤ k →
      [only][k]? = some signals → False := by
    intro α only k signals hk hat
    rw [List.getElem?_eq_none hk] at hat
    cases hat
  constructor
  · left
    constructor
    case ring => exact RingState.Valid.start setup.bufSz_pos hring
    case writerHead => rfl
    case writerCount => rfl
    case readerTail => rfl
    case readerCount => rfl
    case writerSum => exact fun _ => rfl
    case readerSum => exact fun _ => rfl
    case writerIdle => exact ⟨_, rfl, rfl⟩
    case readerIdle => exact ⟨_, rfl, rfl⟩
    case writerTells => exact fun k signals hk hat => (hnothing _ k signals hk hat).elim
    case completedLast =>
      intro k signals hat _
      obtain ⟨hlt, -⟩ := List.getElem?_eq_some_iff.mp hat
      change k < 1 at hlt
      change k + 1 = 1
      omega
    case writerLast =>
      intro k signals hat _
      exact List.mem_singleton.mp (List.mem_of_getElem? hat)
    case readerTells => exact fun k signals hk hat => (hnothing _ k signals hk hat).elim
    case writerStep => exact Or.inl rfl
    case readerStep => exact Or.inl rfl
    case writerRunning =>
      intro hstep
      rcases hstep with hstep | hstep <;> cases hstep
    case readerRunning =>
      intro hstep
      rcases hstep with hstep | hstep <;> cases hstep
    case lastRead => rfl
  · intro _
    constructor <;> intro hstep <;> cases hstep

section Calls

variable {k k₁ k₂ : ℕ}

theorem Transfer.Valid.write (h : t.Valid setup direction) {data : Option (List UInt8)}
    {first second : ReaderSignals} (hseen : t.seenByWriter ≤ k) (horder : k ≤ k₁)
    (hfirst : t.reader.published[k]? = some first)
    (hsecond : t.reader.published[k₁]? = some second)
    (hmeets : t.Meets setup direction (.write data first.signal second.tail)) :
    (t.call setup direction k₁ (.write data first.signal second.tail)).Valid setup direction := by
  obtain ⟨hphase, hown⟩ := h
  refine ⟨?_, hown⟩
  rcases hphase with hactive | hdrained
  · left
    cases direction with
    | fromDevice =>
        exact hactive.deviceWrite hseen horder hfirst hsecond
          (fun hinitialized => hmeets ⟨rfl, hinitialized⟩)
    | toDevice => exact hactive.controllerWrite hseen horder hfirst hsecond
  · right
    exact hdrained.write first.signal second.tail data

theorem Transfer.Valid.read (h : t.Valid setup direction) {n : ℤ} {view : Mem}
    {first second third : WriterSignals} (hseen : t.seenByReader ≤ k) (horder : k ≤ k₁)
    (horder' : k₁ ≤ k₂) (hfirst : t.writer.published[k]? = some first)
    (hsecond : t.writer.published[k₁]? = some second) (hview : t.Views setup k₁ view)
    (hthird : t.writer.published[k₂]? = some third)
    (hmeets : t.Meets setup direction
      (.read n ⟨first.signal, second.head, view, (true, true)⟩ third.cs)) :
    (t.call setup direction k₂
      (.read n ⟨first.signal, second.head, view, (true, true)⟩ third.cs)).Valid setup
      direction := by
  obtain ⟨hphase, hown⟩ := h
  obtain ⟨hstarts, htakes⟩ := hmeets
  cases direction with
  | fromDevice =>
      refine ⟨?_, fun hdirection => by cases hdirection⟩
      rcases hphase with hactive | hdrained
      · exact hactive.controllerRead hseen horder horder' hfirst hsecond hthird hview
          (fun hcompleted hdata => htakes ⟨hcompleted, Or.inl hdata⟩) third.cs
      · right
        exact hdrained.controllerRead (by omega) hthird _ n
  | toDevice =>
      obtain ⟨hnever, hnever'⟩ := hown rfl
      rcases hphase with hactive | hdrained
      · have hread := hactive.deviceRead hseen horder horder' hfirst hsecond hthird hview
          hnever (fun hinitialized => hstarts ⟨rfl, hinitialized⟩)
          (fun hcompleted hdata => htakes ⟨hcompleted,
            hdata.imp_right fun hinitialized => ⟨rfl, hinitialized⟩⟩) third.cs
        exact ⟨hread.1, fun _ => hread.2⟩
      · obtain ⟨hread, hdone⟩ :=
          hdrained.deviceRead (by omega) hthird hnever' ⟨first.signal, second.head, view,
            (true, true)⟩ n
        refine ⟨Or.inr hread, fun _ => ?_⟩
        unfold Transfer.call Transfer.afterRead StreamerSetup.read
        dsimp only
        rw [StreamerSetup.checkRead_step, hdone]
        constructor <;> decide

theorem Transfer.Valid.step {call : TransferCall} {next : Transfer}
    (h : t.Valid setup direction) (hstep : TransferStep setup direction t call next)
    (hmeets : t.Meets setup direction call) : next.Valid setup direction := by
  cases hstep with
  | write data k k₁ first second hseen horder hfirst hsecond =>
      exact h.write hseen horder hfirst hsecond hmeets
  | read n hn view k k₁ k₂ first second third hseen horder horder' hfirst hsecond hview hthird =>
      exact h.read hseen horder horder' hfirst hsecond hview hthird hmeets

end Calls

/-- A call which meets the condition. -/
def AllowedTransferStep (setup : StreamerSetup) (direction : StreamDirection)
    (t next : Transfer) : Prop :=
  ∃ call, TransferStep setup direction t call next ∧ t.Meets setup direction call

/-- In every run of calls which meet the condition, a read which does not return
that the transfer goes on returns that it is completed, and all the bytes which
were written have been read. -/
theorem stream_transfer_complete (setup : StreamerSetup) (direction : StreamDirection)
    (t : Transfer)
    (hreachable : TransitionSystem.Reachable (TransferStart setup)
      (AllowedTransferStep setup direction) t) :
    t.Complete := by
  have hvalid : t.Valid setup direction := by
    apply TransitionSystem.Reachable.invariant (Transfer.Valid setup direction) _ _ hreachable
    · exact fun _ hstart => Transfer.Valid.start hstart
    · intro s next hs hstep
      obtain ⟨call, hcall, hmeets⟩ := hstep
      exact hs.step hcall hmeets
  rcases hvalid.1 with hactive | hdrained
  · exact hactive.complete
  · exact hdrained.complete

/-! ## Runs with chosen versions -/

inductive TransferChoice where
  | write (data : Option (List UInt8)) (k k₁ : ℕ)
  | read (n : ℤ) (k k₁ k₂ : ℕ)

def Transfer.choose (t : Transfer) : TransferChoice → Option (TransferCall × ℕ)
  | .write data k k₁ => do
      let first ← t.reader.published[k]?
      let second ← t.reader.published[k₁]?
      if t.seenByWriter ≤ k ∧ k ≤ k₁ then some (.write data first.signal second.tail, k₁)
      else none
  | .read n k k₁ k₂ => do
      let first ← t.writer.published[k]?
      let second ← t.writer.published[k₁]?
      let third ← t.writer.published[k₂]?
      if 0 < n ∧ t.seenByReader ≤ k ∧ k ≤ k₁ ∧ k₁ ≤ k₂ then
        some (.read n ⟨first.signal, second.head, second.buffer, (true, true)⟩ third.cs, k₂)
      else none

theorem Transfer.choose_step {choice : TransferChoice} {call : TransferCall} {seen : ℕ}
    (h : t.choose choice = some (call, seen)) :
    TransferStep setup direction t call (t.call setup direction seen call) := by
  cases choice with
  | write data k k₁ =>
      simp only [Transfer.choose, Option.bind_eq_bind, Option.bind_eq_some_iff] at h
      obtain ⟨first, hfirst, second, hsecond, h⟩ := h
      split_ifs at h with horder
      obtain ⟨rfl, rfl⟩ := Prod.mk.inj (Option.some.inj h)
      exact TransferStep.write t data k k₁ first second horder.1 horder.2 hfirst hsecond
  | read n k k₁ k₂ =>
      simp only [Transfer.choose, Option.bind_eq_bind, Option.bind_eq_some_iff] at h
      obtain ⟨first, hfirst, second, hsecond, third, hthird, h⟩ := h
      split_ifs at h with horder
      obtain ⟨rfl, rfl⟩ := Prod.mk.inj (Option.some.inj h)
      obtain ⟨hn, hseen, hnext, hlast⟩ := horder
      exact TransferStep.read t n hn second.buffer k k₁ k₂ first second third hseen hnext hlast
        hfirst hsecond (fun _ _ => ⟨k₁, second, le_refl k₁, hsecond, rfl⟩) hthird

instance (call : TransferCall) : Decidable (t.Meets setup direction call) :=
  match call with
  | .write _ _ _ => inferInstanceAs (Decidable (_ → _))
  | .read _ _ _ => inferInstanceAs (Decidable (_ ∧ _))

def Transfer.play (setup : StreamerSetup) (direction : StreamDirection) (strict : Bool)
    (t : Transfer) (choice : TransferChoice) : Option Transfer := do
  let chosen ← t.choose choice
  if strict = true → t.Meets setup direction chosen.1 then
    some (t.call setup direction chosen.2 chosen.1)
  else none

theorem reachable_of_play {strict : Bool} {choices : List TransferChoice} {next : Transfer}
    (hstart : TransitionSystem.Reachable (TransferStart setup)
      (fun s s' => ∃ call, TransferStep setup direction s call s' ∧
        (strict = true → s.Meets setup direction call)) t)
    (h : choices.foldlM (Transfer.play setup direction strict) t = some next) :
    TransitionSystem.Reachable (TransferStart setup)
      (fun s s' => ∃ call, TransferStep setup direction s call s' ∧
        (strict = true → s.Meets setup direction call)) next := by
  induction choices generalizing t with
  | nil =>
      obtain rfl := Option.some.inj h
      exact hstart
  | cons choice choices ih =>
      rw [List.foldlM_cons, Option.bind_eq_bind, Option.bind_eq_some_iff] at h
      obtain ⟨between, hplay, hrest⟩ := h
      apply ih _ hrest
      unfold Transfer.play at hplay
      rw [Option.bind_eq_bind, Option.bind_eq_some_iff] at hplay
      obtain ⟨⟨call, seen⟩, hchoose, hplay⟩ := hplay
      split_ifs at hplay with hmeets
      obtain rfl := Option.some.inj hplay
      exact hstart.next ⟨call, Transfer.choose_step hchoose, hmeets⟩

def fourByteSetup : StreamerSetup := ⟨4, Nat.succ_pos 3, 0, fun checksum _ => checksum, true⟩

def openedTransfer : Transfer :=
  let writerSignals : WriterSignals := ⟨.idle, 0, fun _ => 0, 0, 0⟩
  let readerSignals : ReaderSignals := ⟨.idle, 0, 0⟩
  ⟨⟨.initialized, 0, 0, writerSignals, [writerSignals]⟩,
    ⟨.initialized, 0, 0, readerSignals, [readerSignals]⟩, 0, 0, [], [], .success⟩

/-- A device writes two bytes and the end of the data, and the controller reads
`n` bytes when it gets that the transfer is completed. -/
def twoByteTransfer (n : ℤ) (strict : Bool) : Option Transfer :=
  [TransferChoice.read n 0 0 0, .write (some [1, 2]) 1 1, .write none 1 1, .read n 4 4 4,
    .read n 4 4 4, .write none 3 3, .read n 6 6 6].foldlM
    (Transfer.play fourByteSetup .fromDevice strict) openedTransfer

theorem stream_transfer_complete_twoByteTransfer :
    ((twoByteTransfer 2 true).getD openedTransfer).Complete := by
  apply stream_transfer_complete fourByteSetup .fromDevice
  have hplay : twoByteTransfer 2 true = some ((twoByteTransfer 2 true).getD openedTransfer) := rfl
  apply TransitionSystem.Reachable.mono _ (reachable_of_play
    (TransitionSystem.Reachable.start ⟨fun _ => 0, rfl⟩) hplay)
  rintro s s' ⟨call, hcall, hmeets⟩
  exact ⟨call, hcall, hmeets rfl⟩

/-- A read of one byte which gets that the transfer is completed leaves the other
byte in the buffer. -/
theorem stream_transfer_incomplete :
    ¬∀ (setup : StreamerSetup) (direction : StreamDirection) (t : Transfer),
      TransitionSystem.Reachable (TransferStart setup)
        (fun s s' => ∃ call, TransferStep setup direction s call s') t → t.Complete := by
  intro hcomplete
  obtain ⟨t, ht, hlast, hread, hwritten⟩ : ∃ t, twoByteTransfer 1 false = some t ∧
      t.lastRead = .completed ∧ t.read = [1] ∧ t.written = [1, 2] :=
    ⟨_, rfl, rfl, rfl, rfl⟩
  have hreachable := reachable_of_play
    (TransitionSystem.Reachable.start ⟨fun _ => 0, rfl⟩) ht
  have hdone := hcomplete fourByteSetup .fromDevice t
    (hreachable.mono fun _ _ hstep => hstep.imp fun _ hcall => hcall.1)
  unfold Transfer.Complete at hdone
  rw [hlast, hread, hwritten] at hdone
  revert hdone
  decide

end Iocom
