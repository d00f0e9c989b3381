import Iocom.ControlStreamPhases

/-!
# What a device sends over its control stream

The controller is told that the transfer is completed only when it has read what
the device has written of the block, and that is the whole block unless the error
signal of the device tells of an error.
-/

namespace Iocom

variable {setup : StreamerSetup} {negative : ℕ → ℕ} {s : ControlSend}

def ControlSource.Read (source : ControlSource) (pos : ℕ) : Prop :=
  source.content.isSome ∧ source.bytes.length ≤ pos

def Transfer.KeptUp (t : Transfer) : Prop :=
  t.writer.step.gaveUp = false ∧ t.reader.step.gaveUp = false

structure ControlSend.Delivers (s : ControlSend) : Prop where
  completed : s.transfer.lastRead = .completed →
    s.transfer.read <+: s.source.bytes ∧
      (s.err.isError = false → s.source.content = some s.transfer.read)
  whole : s.point ≠ .closed → s.transfer.KeptUp → s.err.isError = false →
    s.transfer.written = s.source.bytes.take s.pos
  finished : s.err = .completed → s.transfer.KeptUp →
    s.source.content = some s.transfer.read

structure ControlSend.Live (setup : StreamerSetup) (s : ControlSend) : Prop where
  phase : s.transfer.Active setup ∨ s.transfer.Drained setup
  step : s.transfer.writer.step ≠ .initialized2
  closed : s.point = .closed → s.transfer.writer.step = .initialized ∧ s.transfer.written = []
  started : s.point ≠ .closed → 1 ≤ s.transfer.seenByWriter
  isPrefix : s.transfer.written <+: s.source.bytes
  whole : s.point ≠ .closed → (s.transfer.writer.step.unfinished ∨ s.err.isError = false) →
    s.transfer.written = s.source.bytes.take s.pos
  moving : ∀ bytes, s.point = .moving bytes → s.persistent ∨ s.source.isDefault
  room : s.transfer.Active setup → ∀ bytes, s.point = .moving bytes → 0 < bytes →
    s.transfer.Room setup bytes.toNat
  exhausted : s.point = .finishing ∨
      s.point = .between ∧ ¬(s.persistent ∨ s.source.isDefault) →
    s.persistentOk → s.err.isError = false → s.source.Read s.pos
  told : s.transfer.writer.step = .transferDone ∨ s.transfer.writer.step = .allCompleted →
    s.err.isError = false → s.source.Read s.pos
  done : s.point = .done → s.transfer.writer.step = .allCompleted
  errDone : s.err = .completed → s.point = .done

def ControlSend.Invariant (setup : StreamerSetup) (s : ControlSend) : Prop :=
  s.transfer.Aborted ∨ s.Live setup

theorem ControlSource.Read.content_eq {source : ControlSource} {pos : ℕ}
    (h : source.Read pos) : source.content = some (source.bytes.take pos) := by
  obtain ⟨content, hcontent⟩ := Option.isSome_iff_exists.mp h.1
  have hle := h.2
  simp only [ControlSource.bytes, hcontent, Option.getD_some] at hle ⊢
  rw [List.take_of_length_le hle]

theorem Transfer.Aborted.not_keptUp {t : Transfer} (h : t.Aborted) : ¬t.KeptUp := by
  rintro ⟨hwriter, hreader⟩
  rcases h.gaveUp with hgaveUp | ⟨hgaveUp, -⟩
  · simp [hreader] at hgaveUp
  · simp [hwriter] at hgaveUp

theorem Transfer.Active.not_allCompleted {t : Transfer} (h : t.Active setup) :
    t.writer.step ≠ .allCompleted := by
  rcases h.writerStep with hstep | hstep | ⟨hstep | hstep, -⟩ <;> simp [hstep]

namespace ControlSend

theorem Live.drained_of_done (h : s.Live setup) (hpoint : s.point = .done) :
    s.transfer.Drained setup := by
  rcases h.phase with hactive | hdrained
  · exact absurd (h.done hpoint) hactive.not_allCompleted
  · exact hdrained

theorem Live.not_closed (h : s.Live setup) (hdrained : s.transfer.Drained setup) :
    s.point ≠ .closed := by
  intro hpoint
  have hstep := (h.closed hpoint).1
  rcases hdrained.writerStep with hdone | hdone <;> simp [hstep] at hdone

theorem Invariant.delivers (h : s.Invariant setup) : s.Delivers := by
  rcases h with haborted | hlive
  · exact ⟨fun hcompleted => absurd hcompleted haborted.lastRead,
      fun _ hkept => absurd hkept haborted.not_keptUp,
      fun _ hkept => absurd hkept haborted.not_keptUp⟩
  have hread : s.transfer.Drained setup → s.err.isError = false →
      s.source.content = some s.transfer.read := by
    intro hdrained hok
    rw [hdrained.read, hlive.whole (hlive.not_closed hdrained) (.inr hok)]
    exact (hlive.told hdrained.writerStep hok).content_eq
  constructor
  · intro hcompleted
    rcases hlive.phase with hactive | hdrained
    · simp [hactive.lastRead] at hcompleted
    · exact ⟨hdrained.read ▸ hlive.isPrefix, hread hdrained⟩
  · exact fun hpoint _ hok => hlive.whole hpoint (.inr hok)
  · intro hcompleted _
    exact hread (hlive.drained_of_done (hlive.errDone hcompleted))
      (by simp [hcompleted, StreamerError.isError])

/-! ## Steps of the device -/

section Steps

variable {k k₁ : ℕ} {first second : ReaderSignals}

theorem Live.openStream (h : s.Live setup) (hpoint : s.point = .closed)
    (hseen : s.transfer.seenByWriter ≤ k) (hcmd : s.transfer.reader.published[k]? = some first)
    (hrunning : first.signal = .running) : (s.openStream k).Live setup := by
  obtain ⟨hstep, hwritten⟩ := h.closed hpoint
  have hactive : s.transfer.Active setup := by
    rcases h.phase with hactive | hdrained
    · exact hactive
    · exact absurd hpoint (h.not_closed hdrained)
  constructor
  case phase => exact .inl (hactive.seeSignals hseen hcmd)
  case step => exact h.step
  case closed => simp [ControlSend.openStream]
  case started => exact fun _ => hactive.started_of_reader hcmd (by simp [hrunning])
  case isPrefix => exact h.isPrefix
  case whole => simp [ControlSend.openStream, hwritten]
  case moving => simp [ControlSend.openStream]
  case room => simp [ControlSend.openStream]
  case exhausted =>
    intro hleft hok
    exfalso
    cases hdefault : s.source.isDefault <;>
      simp_all [ControlSend.openStream]
  case told => simp [ControlSend.openStream, hstep]
  case done => simp [ControlSend.openStream]
  case errDone =>
    simp only [ControlSend.openStream, setStreamerError]
    split_ifs <;> simp

theorem Live.begin (h : s.Live setup) (hpoint : s.point = .between)
    (hseen : s.transfer.seenByWriter ≤ k) (htail : s.transfer.reader.published[k]? = some second)
    (connected : Bool) : (s.begin setup k connected second.tail).Live setup := by
  have hopen : s.point ≠ .closed := by simp [hpoint]
  unfold ControlSend.begin
  by_cases hreading : s.persistent ∨ s.source.isDefault
  · rw [if_pos hreading]
    constructor
    case phase => exact h.phase.imp (·.seeSignals hseen htail) (·.seeSignals)
    case step => exact h.step
    case closed => simp
    case started => exact fun _ => (h.started hopen).trans hseen
    case isPrefix => exact h.isPrefix
    case whole => exact fun _ => h.whole hopen
    case moving => exact fun _ _ => hreading
    case room =>
      intro hactive bytes hbytes hpos
      rw [ControlSendPoint.moving.injEq] at hbytes
      cases connected with
      | true => exact hactive.available (le_refl k) htail hbytes.symm
      | false => exact absurd hpos (by simp [← hbytes])
    case exhausted => simp
    case told => exact h.told
    case done => simp
    case errDone => exact fun herr => absurd (h.errDone herr) (by simp [hpoint])
  · rw [if_neg hreading]
    constructor
    case phase => exact h.phase
    case step => exact h.step
    case closed => simp
    case started => exact fun _ => h.started hopen
    case isPrefix => exact h.isPrefix
    case whole => exact fun _ => h.whole hopen
    case moving => simp
    case room => simp
    case exhausted => exact fun _ => h.exhausted (.inr ⟨hpoint, hreading⟩)
    case told => exact h.told
    case done => simp
    case errDone => exact fun herr => absurd (h.errDone herr) (by simp [hpoint])

/-- The loop is left when all has been read, or something has failed. -/
theorem Live.leaveLoop (h : s.Live setup) {bytes : ℤ} (hpoint : s.point = .moving bytes)
    (hread : s.persistentOk → s.err.isError = false → s.source.Read s.pos) :
    s.leaveLoop.Live setup := by
  have hopen : s.point ≠ .closed := by simp [hpoint]
  constructor
  case phase => exact h.phase
  case step => exact h.step
  case closed => simp [ControlSend.leaveLoop]
  case started => exact fun _ => h.started hopen
  case isPrefix => exact h.isPrefix
  case whole => exact fun _ => h.whole hopen
  case moving => simp [ControlSend.leaveLoop]
  case room => simp [ControlSend.leaveLoop]
  case exhausted => exact fun _ => hread
  case told => exact h.told
  case done => simp [ControlSend.leaveLoop]
  case errDone => exact fun herr => absurd (h.errDone herr) (by simp [hpoint])

theorem Live.readFailed (h : s.Live setup) {bytes : ℤ} (hpoint : s.point = .moving bytes) :
    { s with persistentOk := false }.Live setup :=
  { h with exhausted := by simp [hpoint] }

/-- The device waits between its calls, as the controller has not made room. -/
theorem Live.wait (h : s.Live setup) {bytes : ℤ} (hpoint : s.point = .moving bytes) :
    { s with point := .between }.Live setup := by
  have hopen : s.point ≠ .closed := by simp [hpoint]
  exact
    { h with
      closed := by simp
      started := fun _ => h.started hopen
      whole := fun _ => h.whole hopen
      moving := by simp
      room := by simp
      exhausted := fun hleft => absurd (h.moving bytes hpoint) (by simpa using hleft)
      done := by simp
      errDone := fun herr => absurd (h.errDone herr) (by simp [hpoint]) }

theorem Live.timedOut (h : s.Live setup) {bytes : ℤ} (hpoint : s.point = .moving bytes) :
    { s with err := setStreamerError s.err .timeout .setError }.Live setup := by
  have hopen : s.point ≠ .closed := by simp [hpoint]
  have herr : (setStreamerError s.err .timeout .setError).isError = true := by
    simp [setStreamerError, StreamerError.isError]
  exact
    { h with
      whole := fun _ hwhole => h.whole hopen (by simpa [herr] using Or.inl hwhole)
      exhausted := by simp [hpoint]
      told := by simp [herr]
      errDone := by simp [setStreamerError, StreamerError.isError] }

theorem readSource_spec {rdnow : ℕ} {readFails : Bool} {data : List UInt8}
    (h : s.readSource rdnow readFails = some data) :
    s.source.content.isSome ∧ data = (s.source.bytes.drop s.pos).take rdnow := by
  unfold ControlSend.readSource at h
  split_ifs at h
  obtain ⟨content, hcontent, rfl⟩ := Option.map_eq_some_iff.mp h
  simp [ControlSource.bytes, hcontent]

theorem read_of_short {rdnow : ℕ} {readFails : Bool} {data : List UInt8}
    (h : s.readSource rdnow readFails = some data) (hshort : data.length < rdnow) :
    s.source.Read (s.pos + data.length) := by
  obtain ⟨hsome, hdata⟩ := readSource_spec h
  refine ⟨hsome, ?_⟩
  have hlength := congrArg List.length hdata
  simp only [List.length_take, List.length_drop] at hlength
  omega

theorem Live.writing (h : s.Live setup)
    (hstep : ¬(s.transfer.writer.step = .transferDone ∨
      s.transfer.writer.step = .allCompleted)) :
    s.transfer.Active setup ∧
      (s.transfer.writer.step = .initialized ∨ s.transfer.writer.step = .transferData) := by
  rcases h.phase with hactive | hdrained
  · refine ⟨hactive, ?_⟩
    have hnever := h.step
    rcases hactive.writerStep with hcase | hcase | ⟨hcase | hcase, -⟩
    · exact .inl hcase
    · exact absurd hcase hnever
    · exact .inr hcase
    · exact absurd (.inl hcase) hstep
  · exact absurd hdrained.writerStep hstep

theorem Live.phase_stays (h : s.Live setup)
    (hstep : s.transfer.writer.step = .transferDone ∨ s.transfer.writer.step = .allCompleted)
    (hseen : s.transfer.seenByWriter ≤ k) (horder : k ≤ k₁)
    (hfirst : s.transfer.reader.published[k]? = some first)
    (hsecond : s.transfer.reader.published[k₁]? = some second) (data : Option (List UInt8)) :
    let after := s.transfer.afterWrite k₁
      (setup.deviceWrite s.transfer.writer undisturbedCall first.signal second.tail data)
    after.Active setup ∨ after.Drained setup := by
  rcases h.phase with hactive | hdrained
  · refine .inl (hactive.deviceWrite hseen horder hfirst hsecond fun hinitialized => ?_)
    rcases hstep with hcase | hcase <;> simp [hinitialized] at hcase
  · have hwrite : (s.transfer.afterWrite k₁
        (setup.write .fromDevice s.transfer.writer first.signal second.tail data)).Drained setup :=
      hdrained.write first.signal second.tail data
    exact .inr hwrite

/-- The writing end which has written all does not change; had all gone well, there
would have been nothing left to read. -/
theorem Live.write_stays (h : s.Live setup) {bytes : ℤ} (hpoint : s.point = .moving bytes)
    {rdnow : ℕ} {readFails : Bool} {data : List UInt8}
    (hdata : s.readSource rdnow readFails = some data) (hne : data ≠ []) {call : StreamerCall}
    (hcall : s.transfer.writer.Stays call) (hseen : s.transfer.seenByWriter ≤ k)
    (horder : k ≤ k₁) (hfirst : s.transfer.reader.published[k]? = some first)
    (hsecond : s.transfer.reader.published[k₁]? = some second)
    (hstep : s.transfer.writer.step = .transferDone ∨ s.transfer.writer.step = .allCompleted) :
    let result := setup.deviceWrite s.transfer.writer call first.signal second.tail (some data)
    Live setup { s with
        pos := s.pos + data.length
        transfer := s.transfer.afterWrite k₁ result
        point := .moving (bytes - data.length) } ∧ s.err.isError = true := by
  dsimp only
  have hstarted := h.started (by simp [hpoint])
  obtain ⟨-, htaken⟩ := readSource_spec hdata
  have hpos : 0 < data.length := List.length_pos_of_ne_nil hne
  obtain ⟨hsame, hmoved, hstep'⟩ := setup.deviceWrite_stays hstep
    (hcall hstep) first.signal second.tail (some data)
  have hphase := h.phase_stays hstep hseen horder hfirst hsecond (some data)
  dsimp only at hphase
  rw [← hsame] at hphase
  have herr : s.err.isError = true := by
    by_contra hok
    have hread := (h.told hstep (Bool.eq_false_iff.mpr hok)).2
    rw [List.drop_eq_nil_of_le hread, List.take_nil] at htaken
    exact hne htaken
  refine ⟨?_, herr⟩
  generalize setup.deviceWrite s.transfer.writer call first.signal second.tail (some data) =
    result at hphase hmoved hstep'
  constructor
  case phase => exact hphase
  case step =>
    rcases hstep' with hcase | hcase <;> simp [Transfer.afterWrite, hcase]
  case closed => simp
  case started => exact fun _ => hstarted.trans (hseen.trans horder)
  case isPrefix => simpa [Transfer.afterWrite, hmoved] using h.isPrefix
  case whole =>
    intro _ hwhole
    rcases hstep' with hcase | hcase <;>
      simp [Transfer.afterWrite, hcase, StreamerStep.unfinished, herr] at hwhole
  case moving => exact fun _ _ => h.moving bytes hpoint
  case room =>
    intro hactive left hleft hleftPos
    rw [ControlSendPoint.moving.injEq] at hleft
    have hbefore : s.transfer.Active setup := by
      refine h.phase.resolve_right fun hdrained => ?_
      have hunfinished := hactive.reader_unfinished
      rcases hdrained.readerStep with hcase | hcase | hcase <;>
        simp [Transfer.afterWrite, hcase, StreamerStep.unfinished] at hunfinished
    have hroom := hbefore.room_later (h.room hbefore bytes hpoint (by omega))
      (hseen.trans horder) hsecond
    refine ⟨second, hsecond, ?_⟩
    simp only [Transfer.afterWrite, hmoved, List.append_nil]
    omega
  case exhausted => simp
  case told => simp [herr]
  case done => simp
  case errDone => exact fun hcompleted => absurd (h.errDone hcompleted) (by simp [hpoint])

theorem Live.write (h : s.Live setup) (hsz : setup.bufSz ≤ 0x80000000) {bytes : ℤ}
    (hpoint : s.point = .moving bytes) {rdnow : ℕ} (hle : rdnow ≤ bytes.toNat)
    {readFails : Bool} {data : List UInt8} (hdata : s.readSource rdnow readFails = some data)
    (hne : data ≠ []) {call : StreamerCall} (hcall : s.transfer.writer.Stays call)
    (hseen : s.transfer.seenByWriter ≤ k) (horder : k ≤ k₁)
    (hfirst : s.transfer.reader.published[k]? = some first)
    (hsecond : s.transfer.reader.published[k₁]? = some second) :
    let result := setup.deviceWrite s.transfer.writer call first.signal second.tail (some data)
    (s.transfer.afterWrite k₁ result).Aborted ∨
      Live setup { s with
        pos := s.pos + data.length
        transfer := s.transfer.afterWrite k₁ result
        point := .moving (bytes - data.length) } ∧
      (deviceStatus result.writer.step ≠ .success → s.err.isError = true) := by
  dsimp only
  have hopen : s.point ≠ .closed := by simp [hpoint]
  have hstarted := h.started hopen
  obtain ⟨-, htaken⟩ := readSource_spec hdata
  have hlength : data.length ≤ rdnow := by
    rw [htaken]
    exact List.length_take_le _ _
  have hpos : 0 < data.length := List.length_pos_of_ne_nil hne
  by_cases hstep : s.transfer.writer.step = .transferDone ∨
      s.transfer.writer.step = .allCompleted
  · obtain ⟨hlive, herr⟩ := h.write_stays hpoint hdata hne hcall hseen horder hfirst hsecond hstep
    exact .inr ⟨hlive, fun _ => herr⟩
  · obtain ⟨hactive, hstep'⟩ := h.writing hstep
    have hnever := hactive.neverCompleted fun hdone => hstep (.inl hdone)
    have hrunning := hactive.reader_running (hstarted.trans hseen) hfirst
    rcases setup.deviceWrite_or call second.tail (some data) hnever hstep'
      (fun _ => .inl hrunning) with ⟨hsame, -⟩ | hgivesUp
    swap
    · exact .inl (hactive.writerGivesUp hgivesUp)
    right
    rw [hsame]
    have hroom := h.room hactive bytes hpoint (by omega)
    have hroom' : s.transfer.Room setup data.length := by
      obtain ⟨seen, hat, hlt⟩ := hroom
      exact ⟨seen, hat, by omega⟩
    obtain ⟨hmoved, hnext⟩ := hactive.deviceWrite_moved hsz hseen horder hstarted hfirst hsecond
      hstep' hroom'
    have hactive' : (s.transfer.afterWrite k₁ (setup.deviceWrite s.transfer.writer undisturbedCall
        first.signal second.tail (some data))).Active setup :=
      hactive.deviceWrite hseen horder hfirst hsecond fun _ => .inl hrunning
    generalize setup.deviceWrite s.transfer.writer undisturbedCall first.signal second.tail
      (some data) = result at hmoved hnext hactive'
    have hwritten : s.transfer.written ++ data = s.source.bytes.take (s.pos + data.length) := by
      have hunfinished : s.transfer.writer.step.unfinished := by
        rcases hstep' with hcase | hcase <;> simp [hcase, StreamerStep.unfinished]
      have hcut : data = (s.source.bytes.drop s.pos).take data.length := by
        have hlen := congrArg List.length htaken
        rw [List.length_take] at hlen
        rw [hlen, ← List.take_take, List.take_length, ← htaken]
      rw [h.whole hopen (.inl hunfinished), List.take_add]
      exact congrArg _ hcut
    refine ⟨?_, by simp [hnext, deviceStatus]⟩
    constructor
    case phase => exact .inl hactive'
    case step => simp [Transfer.afterWrite, hnext]
    case closed => simp
    case started => exact fun _ => hstarted.trans (hseen.trans horder)
    case isPrefix =>
      simp only [Transfer.afterWrite, hmoved, hwritten]
      exact List.take_prefix _ _
    case whole => exact fun _ _ => by simp only [Transfer.afterWrite, hmoved, hwritten]
    case moving => exact fun _ _ => h.moving bytes hpoint
    case room =>
      intro _ left hleft hleftPos
      rw [ControlSendPoint.moving.injEq] at hleft
      have hlater := hactive.room_later hroom (hseen.trans horder) hsecond
      refine ⟨second, hsecond, ?_⟩
      simp only [Transfer.afterWrite, hmoved, List.length_append]
      omega
    case exhausted => simp
    case told => simp [Transfer.afterWrite, hnext]
    case done => simp
    case errDone => exact fun hcompleted => absurd (h.errDone hcompleted) (by simp [hpoint])

theorem Live.round (h : s.Live setup) (hsz : 2 ≤ setup.bufSz ∧ setup.bufSz ≤ 0x80000000)
    {bytes : ℤ} (hpoint : s.point = .moving bytes) (input : Round)
    (hcall : s.transfer.writer.Stays input.call) (hseen : s.transfer.seenByWriter ≤ k)
    (horder : k ≤ k₁) (hfirst : s.transfer.reader.published[k]? = some first)
    (hsecond : s.transfer.reader.published[k₁]? = some second) :
    (s.round setup bytes input k₁ first.signal second.tail).Invariant setup := by
  unfold ControlSend.round
  by_cases hpos : bytes ≤ 0
  · rw [if_pos hpos]
    split_ifs
    · exact .inr ((h.timedOut hpoint).leaveLoop hpoint
        (by simp [setStreamerError, StreamerError.isError]))
    · exact .inr (h.wait hpoint)
  rw [if_neg hpos]
  dsimp only
  have hrdnow : 0 < min bytes.toNat setup.chunkSz := by
    unfold StreamerSetup.chunkSz
    omega
  generalize hmin : min bytes.toNat setup.chunkSz = rdnow at hrdnow
  cases hdata : s.readSource rdnow input.readFails with
  | none => exact .inr ((h.readFailed hpoint).leaveLoop hpoint (by simp))
  | some data =>
      have hread := read_of_short hdata
      dsimp only
      by_cases hempty : data = []
      · rw [if_pos hempty]
        subst hempty
        exact .inr (h.leaveLoop hpoint fun _ _ => hread hrdnow)
      rw [if_neg hempty]
      have hcall' : s.transfer.writer.Stays { input.call with interrupt := false } := hcall
      rcases h.write hsz.2 hpoint (by omega) hdata hempty hcall' hseen horder hfirst hsecond with
        haborted | ⟨hlive, hstatus⟩
      · left
        split_ifs
        · exact haborted
        · exact haborted
        · exact haborted
      · right
        split_ifs with hfailed hshort
        · exact hlive.leaveLoop rfl fun _ hok => absurd (hstatus hfailed) (by simpa using hok)
        · exact hlive.leaveLoop rfl fun _ _ => hread hshort
        · exact hlive

/-- The final handshake goes on, and what has been written stays as it is. -/
theorem Live.handshake (h : s.Live setup) (hpoint : s.point = .finishing)
    {err : StreamerError} (herr : err.isError = false → s.persistentOk ∧ err = s.err)
    (hne : err ≠ .completed) (hseen : s.transfer.seenByWriter ≤ k) {result : WriterResult}
    (hmoved : result.moved = [])
    (hphase : (s.transfer.afterWrite k result).Active setup ∨
      (s.transfer.afterWrite k result).Drained setup)
    (hstep : result.writer.step = .transferDone ∨ result.writer.step = .allCompleted) :
    Live setup { s with
      transfer := s.transfer.afterWrite k result
      err := err
      point := .between } := by
  have hopen : s.point ≠ .closed := by simp [hpoint]
  have hread : err.isError = false → s.source.Read s.pos := by
    intro hok
    obtain ⟨hpersistent, rfl⟩ := herr hok
    exact h.exhausted (.inl hpoint) hpersistent hok
  constructor
  case phase => exact hphase
  case step => rcases hstep with hcase | hcase <;> simp [Transfer.afterWrite, hcase]
  case closed => simp
  case started => exact fun _ => (h.started hopen).trans hseen
  case isPrefix => simpa [Transfer.afterWrite, hmoved] using h.isPrefix
  case whole =>
    intro _ hwhole
    have hok : err.isError = false := by
      rcases hstep with hcase | hcase <;>
        simpa [Transfer.afterWrite, hcase, StreamerStep.unfinished] using hwhole
    obtain ⟨-, rfl⟩ := herr hok
    simpa [Transfer.afterWrite, hmoved] using h.whole hopen (.inr hok)
  case moving => simp
  case room => simp
  case exhausted => exact fun _ _ => hread
  case told => exact fun _ => hread
  case done => simp
  case errDone => exact fun hcompleted => absurd hcompleted hne

theorem Live.close (h : s.Live setup) (hpoint : s.point = .between)
    (hstep : s.transfer.writer.step = .allCompleted) :
    Live setup { s with
      transfer := { s.transfer with writer := s.transfer.writer.close }
      err := setStreamerError s.err .completed .completed
      point := .done } := by
  have hopen : s.point ≠ .closed := by simp [hpoint]
  have hdrained : s.transfer.Drained setup := by
    rcases h.phase with hactive | hdrained
    · exact absurd hstep hactive.not_allCompleted
    · exact hdrained
  have herr : (setStreamerError s.err .completed .completed).isError = s.err.isError := by
    cases hcase : s.err <;> rfl
  constructor
  case phase => exact .inr hdrained.closeWriter
  case step => exact h.step
  case closed => simp
  case started => exact fun _ => h.started hopen
  case isPrefix => exact h.isPrefix
  case whole =>
    intro _ hwhole
    rw [herr] at hwhole
    exact h.whole hopen hwhole
  case moving => simp
  case room => simp
  case exhausted => simp
  case told =>
    intro _ hok
    rw [herr] at hok
    exact h.told (.inr hstep) hok
  case done => exact fun _ => hstep
  case errDone => exact fun _ => rfl

theorem Live.finish (h : s.Live setup) (hpoint : s.point = .finishing) {call : StreamerCall}
    (hcall : s.transfer.writer.Stays call) (hseen : s.transfer.seenByWriter ≤ k)
    (horder : k ≤ k₁) (hfirst : s.transfer.reader.published[k]? = some first)
    (hsecond : s.transfer.reader.published[k₁]? = some second) :
    (s.finish setup call k₁ first.signal second.tail).Invariant setup := by
  have hstarted := h.started (by simp [hpoint])
  have hseen' := hseen.trans horder
  unfold ControlSend.finish
  dsimp only
  generalize herr : (if s.persistentOk then s.err
    else setStreamerError s.err .readingFileFailed .setError) = err
  have hkept : err.isError = false → s.persistentOk ∧ err = s.err := by
    intro hok
    split_ifs at herr with hpersistent
    · exact ⟨hpersistent, herr.symm⟩
    · simp [← herr, setStreamerError, StreamerError.isError] at hok
  have hne : err ≠ .completed := by
    split_ifs at herr with hpersistent
    · exact fun hcompleted => absurd (h.errDone (herr.trans hcompleted)) (by simp [hpoint])
    · simp [← herr, setStreamerError, StreamerError.isError]
  by_cases hstep : s.transfer.writer.step = .transferDone ∨
      s.transfer.writer.step = .allCompleted
  · obtain ⟨hsame, hmoved, hstep'⟩ := setup.deviceWrite_stays hstep
      (show ({ call with interrupt := !s.persistentOk } : StreamerCall).elapsed = false ∧
        ({ call with interrupt := !s.persistentOk } : StreamerCall).connected = true
        from hcall hstep) first.signal second.tail none
    have hphase := h.phase_stays hstep hseen horder hfirst hsecond none
    dsimp only at hphase
    rw [← hsame] at hphase
    have hlive := h.handshake hpoint hkept hne hseen' hmoved hphase hstep'
    right
    split_ifs with hstatus
    · exact hlive
    · refine hlive.close rfl (hstep'.resolve_left fun hdone => hstatus ?_)
      rw [hdone]
      rfl
  · obtain ⟨hactive, hstep'⟩ := h.writing hstep
    have hnever := hactive.neverCompleted fun hdone => hstep (.inl hdone)
    have hrunning := hactive.reader_running (hstarted.trans hseen) hfirst
    rcases setup.deviceWrite_or { call with interrupt := !s.persistentOk } second.tail none hnever
      hstep' (fun _ => .inl hrunning) with ⟨hsame, -⟩ | hgivesUp
    · obtain ⟨hmoved, hdone⟩ := hactive.deviceWrite_end hseen hstarted hfirst hsecond
        (hstep'.imp_right .inl)
      have hactive' : (s.transfer.afterWrite k₁ (setup.deviceWrite s.transfer.writer
          undisturbedCall first.signal second.tail none)).Active setup :=
        hactive.deviceWrite hseen horder hfirst hsecond fun _ => .inl hrunning
      rw [hsame, if_pos (by rw [hdone]; rfl)]
      exact .inr (h.handshake hpoint hkept hne hseen' hmoved (.inl hactive') (.inl hdone))
    · left
      have haborted : (s.transfer.afterWrite k₁ _).Aborted := hactive.writerGivesUp hgivesUp
      split_ifs
      · exact haborted
      · exact haborted.closeWriter

end Steps

/-! ## Calls of the controller -/

theorem Live.afterRead (h : s.Live setup) {transfer : Transfer}
    (hphase : transfer.Active setup ∨ transfer.Drained setup)
    (hwriter : transfer.writer = s.transfer.writer)
    (hseen : transfer.seenByWriter = s.transfer.seenByWriter)
    (hwritten : transfer.written = s.transfer.written)
    (hactive : transfer.Active setup → s.transfer.Active setup)
    (hpublished : s.transfer.reader.published <+: transfer.reader.published) :
    Live setup { s with transfer := transfer } := by
  constructor
  case phase => exact hphase
  case step => rw [hwriter]; exact h.step
  case closed => rw [hwriter, hwritten]; exact h.closed
  case started => rw [hseen]; exact h.started
  case isPrefix => rw [hwritten]; exact h.isPrefix
  case whole => rw [hwriter, hwritten]; exact h.whole
  case moving => exact h.moving
  case room =>
    intro hnow bytes hbytes hpos
    obtain ⟨seen, hat, hroom⟩ := h.room (hactive hnow) bytes hbytes hpos
    refine ⟨seen, ?_, by rwa [hwritten]⟩
    obtain ⟨more, hmore⟩ := hpublished
    rw [hseen, ← hmore]
    exact History.getElem?_append_of_some hat
  case exhausted => exact h.exhausted
  case told => rw [hwriter]; exact h.told
  case done => rw [hwriter]; exact h.done
  case errDone => exact h.errDone

theorem Live.runStream (h : s.Live setup) (hsz : setup.bufSz ≤ 0x80000000)
    {k k₁ k₂ : ℕ} {first second third : WriterSignals} {view : Mem}
    (hseen : s.transfer.seenByReader ≤ k) (horder : k ≤ k₁) (horder' : k₁ ≤ k₂)
    (hfirst : s.transfer.writer.published[k]? = some first)
    (hsecond : s.transfer.writer.published[k₁]? = some second)
    (hview : s.transfer.Views setup k₁ view)
    (hthird : s.transfer.writer.published[k₂]? = some third) (call : StreamerCall)
    (bufferConnected : Bool × Bool) :
    (s.runStream setup negative call k₂ ⟨first.signal, second.head, view, bufferConnected⟩
      third.cs).Invariant setup := by
  unfold ControlSend.runStream
  dsimp only
  generalize ({ call with interrupt := false } : StreamerCall) = input
  have hcounted := setup.readCounted_controller negative s.transfer.reader input
    ⟨first.signal, second.head, view, bufferConnected⟩ third.cs
  generalize setup.readCounted negative .fromDevice s.transfer.reader _ = counted at hcounted ⊢
  rcases hcounted.afterCounted s.transfer k₂ with hread | haborted
  case inr =>
    left
    split_ifs
    · exact haborted
    · exact haborted.closeReader
  rw [hread]
  dsimp only
  generalize hresult : setup.controllerRead s.transfer.reader input
    ⟨first.signal, second.head, view, (true, true)⟩ setup.chunkSz = result
  generalize hafter : s.transfer.afterRead k₂ (setup.checkRead result
    (controllerReadStatus result.reader.step) third.cs) = after
  have hpublished : s.transfer.reader.published <+: after.reader.published := by
    have hread := setup.controllerRead_published s.transfer.reader input
      ⟨first.signal, second.head, view, (true, true)⟩ setup.chunkSz
    rw [hresult] at hread
    have hchecked : (setup.checkRead result (controllerReadStatus result.reader.step)
        third.cs).1.published = result.reader.published := by
      unfold StreamerSetup.checkRead
      split_ifs <;> rfl
    rw [← hafter]
    simpa only [Transfer.afterRead, hchecked] using hread
  have hphase : after.Aborted ∨ (after.Active setup ∧ s.transfer.Active setup) ∨
      after.Drained setup := by
    rcases h.phase with hactive | hdrained
    · have hreads := hactive.controllerReads hsz hseen horder horder' hfirst hsecond hthird hview
        input
      dsimp only at hreads
      rw [hresult, hafter] at hreads
      tauto
    · have hreads := hdrained.controllerReads (by omega) hthird input
        ⟨first.signal, second.head, view, (true, true)⟩ setup.chunkSz
      dsimp only at hreads
      rw [hresult, hafter] at hreads
      tauto
  have hsame : after.writer = s.transfer.writer ∧
      after.seenByWriter = s.transfer.seenByWriter ∧ after.written = s.transfer.written := by
    rw [← hafter]
    exact ⟨rfl, rfl, rfl⟩
  rcases hphase with haborted | ⟨hactive, hbefore⟩ | hdrained
  · left
    split_ifs
    · exact haborted
    · exact haborted.closeReader
  · right
    rw [if_pos hactive.lastRead]
    exact h.afterRead (.inl hactive) hsame.1 hsame.2.1 hsame.2.2 (fun _ => hbefore) hpublished
  · right
    split_ifs
    · exact h.afterRead (.inr hdrained) hsame.1 hsame.2.1 hsame.2.2
        (fun hactive => absurd hdrained hactive.not_drained) hpublished
    · exact h.afterRead (.inr hdrained.closeReader) hsame.1 hsame.2.1 hsame.2.2
        (fun hactive => absurd hdrained.closeReader hactive.not_drained)
        (hpublished.trans ((List.prefix_append _ _).trans (List.prefix_append _ _)))

/-! ## Runs -/

theorem Invariant.start (h : ControlSendStart setup s) : s.Invariant setup := by
  obtain ⟨htransfer, herr, hpoint⟩ := h
  have hactive : s.transfer.Active setup := by
    have hvalid : s.transfer.Valid setup .fromDevice := Transfer.Valid.start htransfer
    rcases hvalid.1 with hactive | hdrained
    · exact hactive
    · obtain ⟨buffer, hstart⟩ := htransfer
      rcases hdrained.writerStep with hcase | hcase <;> simp [hstart] at hcase
  obtain ⟨buffer, hstart⟩ := htransfer
  right
  constructor
  case phase => exact .inl hactive
  case step => simp [hstart]
  case closed => simp [hstart]
  case started => exact fun hopen => absurd hpoint hopen
  case isPrefix => simp [hstart]
  case whole => exact fun hopen => absurd hpoint hopen
  case moving => simp [hpoint]
  case room => simp [hpoint]
  case exhausted => simp [hpoint]
  case told => simp [hstart]
  case done => simp [hpoint]
  case errDone => simp [herr]

theorem aborted_step {next : ControlSend} (h : s.transfer.Aborted)
    (hstep : ControlSendStep setup negative s next) : next.transfer.Aborted := by
  cases hstep with
  | openStream k => exact h.seeSignals
  | begin k connected tail =>
      unfold ControlSend.begin
      by_cases hreading : s.persistent ∨ s.source.isDefault
      · rw [if_pos hreading]
        exact h.seeSignals
      · rw [if_neg hreading]
        exact h
  | round bytes input k k₁ first second =>
      unfold ControlSend.round
      split_ifs
      · exact h
      · exact h
      · dsimp only
        cases s.readSource (min bytes.toNat setup.chunkSz) input.readFails with
        | none => exact h
        | some data =>
            have hwrite : (s.transfer.afterWrite k₁ (setup.deviceWrite s.transfer.writer
                { input.call with interrupt := false } first.signal second.tail
                (some data))).Aborted :=
              h.afterWrite StreamerSetup.deviceWrite_gaveUp
            dsimp only
            split_ifs
            · exact h
            · exact hwrite
            · exact hwrite
            · exact hwrite
  | finish call k k₁ first second =>
      have hwrite : (s.transfer.afterWrite k₁ (setup.deviceWrite s.transfer.writer
          { call with interrupt := !s.persistentOk } first.signal second.tail none)).Aborted :=
        h.afterWrite StreamerSetup.deviceWrite_gaveUp
      unfold ControlSend.finish
      dsimp only
      generalize (if s.persistentOk then s.err
        else setStreamerError s.err .readingFileFailed .setError) = err
      split_ifs
      · exact hwrite
      · exact hwrite.closeWriter
  | runStream call view bufferConnected k k₁ k₂ first second third hopen hseen horder horder'
      hfirst =>
      unfold ControlSend.runStream
      dsimp only
      generalize ({ call with interrupt := false } : StreamerCall) = input
      have hcounted := setup.readCounted_controller negative s.transfer.reader input
        ⟨first.signal, second.head, view, bufferConnected⟩ third.cs
      have hread : (s.transfer.afterCounted k₂ (setup.readCounted negative .fromDevice
          s.transfer.reader (setup.chunkRead input
            ⟨first.signal, second.head, view, bufferConnected⟩ third.cs))).Aborted := by
        rcases hcounted.afterCounted s.transfer k₂ with hsame | haborted
        · rw [hsame]
          exact h.controllerRead hfirst setup input
            ⟨first.signal, second.head, view, (true, true)⟩ rfl setup.chunkSz k₂ third.cs
        · exact haborted
      split_ifs
      · exact hread
      · exact hread.closeReader

theorem Invariant.step {next : ControlSend} (h : s.Invariant setup)
    (hsz : 2 ≤ setup.bufSz ∧ setup.bufSz ≤ 0x80000000)
    (hstep : ControlSendStep setup negative s next) :
    next.Invariant setup := by
  rcases h with haborted | hlive
  · exact .inl (aborted_step haborted hstep)
  cases hstep with
  | openStream k cmd hpoint hseen hcmd hrunning =>
      exact .inr (hlive.openStream hpoint hseen hcmd hrunning)
  | begin k connected tail hpoint hseen htail =>
      exact .inr (hlive.begin hpoint hseen htail connected)
  | round bytes input k k₁ first second hpoint hcall hseen horder hfirst hsecond =>
      exact hlive.round hsz hpoint input hcall hseen horder hfirst hsecond
  | finish call k k₁ first second hpoint hcall hseen horder hfirst hsecond =>
      exact hlive.finish hpoint hcall hseen horder hfirst hsecond
  | runStream call view bufferConnected k k₁ k₂ first second third hopen hseen horder horder'
      hfirst hsecond hview hthird =>
      exact hlive.runStream hsz.2 hseen horder horder' hfirst hsecond hview hthird call
        bufferConnected

end ControlSend

/-- In every run in which either end may time out, lose its connection or its ring buffer,
or fail to read, a controller which is told that the transfer is completed has read a
beginning of the block, and all of it unless the error signal of the device tells of an
error. -/
theorem control_stream_from_device (setup : StreamerSetup) (negative : ℕ → ℕ)
    (hsz : 2 ≤ setup.bufSz ∧ setup.bufSz ≤ 0x80000000) (s : ControlSend)
    (hreachable : TransitionSystem.Reachable (ControlSendStart setup)
      (ControlSendStep setup negative) s) : s.Delivers := by
  have hinvariant : s.Invariant setup :=
    TransitionSystem.Reachable.invariant (ControlSend.Invariant setup)
      (fun _ hstart => ControlSend.Invariant.start hstart)
      (fun _ _ hs hstep => hs.step hsz hstep) hreachable
  exact hinvariant.delivers

/-! ## Runs with chosen versions -/

inductive ControlSendChoice where
  | openStream (k : ℕ)
  | begin (k : ℕ)
  | round (timedOut : Bool) (k : ℕ)
  | finish (k : ℕ)
  | runStream (k : ℕ)

/-- An undisturbed step with the version which was chosen. -/
def ControlSend.play (setup : StreamerSetup) (negative : ℕ → ℕ) (s : ControlSend) :
    ControlSendChoice → Option ControlSend
  | .openStream k => do
      let cmd ← s.transfer.reader.published[k]?
      if s.point = .closed ∧ s.transfer.seenByWriter ≤ k ∧ cmd.signal = .running then
        some (s.openStream k)
      else none
  | .begin k => do
      let tail ← s.transfer.reader.published[k]?
      if s.point = .between ∧ s.transfer.seenByWriter ≤ k then
        some (s.begin setup k true tail.tail)
      else none
  | .round timedOut k => do
      let signals ← s.transfer.reader.published[k]?
      match s.point with
      | .moving bytes =>
          if s.transfer.seenByWriter ≤ k then
            some (s.round setup bytes ⟨timedOut, false, undisturbedCall⟩ k signals.signal
              signals.tail)
          else none
      | _ => none
  | .finish k => do
      let signals ← s.transfer.reader.published[k]?
      if s.point = .finishing ∧ s.transfer.seenByWriter ≤ k then
        some (s.finish setup undisturbedCall k signals.signal signals.tail)
      else none
  | .runStream k => do
      let signals ← s.transfer.writer.published[k]?
      if s.transfer.lastRead = .success ∧ s.transfer.seenByReader ≤ k then
        some (s.runStream setup negative undisturbedCall k
          ⟨signals.signal, signals.head, signals.buffer, (true, true)⟩ signals.cs)
      else none

theorem ControlSend.play_step {choice : ControlSendChoice} {next : ControlSend}
    (h : s.play setup negative choice = some next) : ControlSendStep setup negative s next := by
  have hstays : s.transfer.writer.Stays undisturbedCall := fun _ => ⟨rfl, rfl⟩
  cases choice with
  | openStream k =>
      simp only [ControlSend.play, Option.bind_eq_bind, Option.bind_eq_some_iff] at h
      obtain ⟨cmd, hcmd, h⟩ := h
      split_ifs at h with hall
      obtain rfl := Option.some.inj h
      exact .openStream s k cmd hall.1 hall.2.1 hcmd hall.2.2
  | begin k =>
      simp only [ControlSend.play, Option.bind_eq_bind, Option.bind_eq_some_iff] at h
      obtain ⟨tail, htail, h⟩ := h
      split_ifs at h with hall
      obtain rfl := Option.some.inj h
      exact .begin s k true tail hall.1 hall.2 htail
  | round timedOut k =>
      simp only [ControlSend.play, Option.bind_eq_bind, Option.bind_eq_some_iff] at h
      obtain ⟨signals, hsignals, h⟩ := h
      split at h
      next bytes hpoint =>
        split_ifs at h with hseen
        obtain rfl := Option.some.inj h
        exact .round s bytes ⟨timedOut, false, undisturbedCall⟩ k k signals signals hpoint hstays
          hseen (le_refl k) hsignals hsignals
      · cases h
  | finish k =>
      simp only [ControlSend.play, Option.bind_eq_bind, Option.bind_eq_some_iff] at h
      obtain ⟨signals, hsignals, h⟩ := h
      split_ifs at h with hall
      obtain rfl := Option.some.inj h
      exact .finish s undisturbedCall k k signals signals hall.1 hstays hall.2 (le_refl k)
        hsignals hsignals
  | runStream k =>
      simp only [ControlSend.play, Option.bind_eq_bind, Option.bind_eq_some_iff] at h
      obtain ⟨signals, hsignals, h⟩ := h
      split_ifs at h with hall
      obtain rfl := Option.some.inj h
      exact .runStream s undisturbedCall signals.buffer (true, true) k k k signals signals signals
        hall.1 hall.2 (le_refl k) (le_refl k) hsignals hsignals
        (fun _ _ => ⟨k, signals, le_refl k, hsignals, rfl⟩) hsignals

def fiveByteBlock : ControlSend :=
  ⟨openedTransfer, ⟨some [1, 2, 3, 4, 5], false⟩, 0, false, false, .success, .closed⟩

theorem fiveByteBlock_start : ControlSendStart fourByteSetup fiveByteBlock :=
  ⟨⟨fun _ => 0, rfl⟩, rfl, rfl⟩

def writeThreeBytes : List ControlSendChoice :=
  [.runStream 0, .openStream 1, .begin 1, .round false 1]

def readFiveBytes : List ControlSendChoice :=
  writeThreeBytes ++
    [.round false 1, .runStream 2, .runStream 2, .begin 2, .round false 2, .finish 2,
      .runStream 5, .begin 3, .finish 4, .runStream 7]

def readThreeBytes : List ControlSendChoice :=
  writeThreeBytes ++
    [.round true 1, .finish 1, .runStream 4, .runStream 4, .begin 3, .finish 3, .runStream 6]

theorem control_stream_from_device_fiveBytes :
    ∃ s : ControlSend, s.Delivers ∧ s.transfer.lastRead = .completed ∧
      s.transfer.read = [1, 2, 3, 4, 5] ∧ s.err = .completed := by
  obtain ⟨s, hs, hfacts⟩ : ∃ s, readFiveBytes.foldlM (ControlSend.play fourByteSetup id)
      fiveByteBlock = some s ∧ s.transfer.lastRead = .completed ∧
        s.transfer.read = [1, 2, 3, 4, 5] ∧ s.err = .completed :=
    ⟨_, rfl, rfl, rfl, rfl⟩
  exact ⟨s, control_stream_from_device fourByteSetup id (by decide) s
    (.play (fun _ _ _ => ControlSend.play_step) (.start fiveByteBlock_start) hs), hfacts⟩

/-- A controller which reads only after the device has timed out is told that the
transfer is completed with a part of the block; the device tells of the time-out. -/
theorem control_stream_truncated :
    ∃ s : ControlSend,
      TransitionSystem.Reachable (ControlSendStart fourByteSetup)
          (ControlSendStep fourByteSetup id) s ∧
        s.transfer.lastRead = .completed ∧ s.source.content = some [1, 2, 3, 4, 5] ∧
        s.transfer.read = [1, 2, 3] ∧ s.err = .timeout := by
  obtain ⟨s, hs, hfacts⟩ : ∃ s, readThreeBytes.foldlM (ControlSend.play fourByteSetup id)
      fiveByteBlock = some s ∧ s.transfer.lastRead = .completed ∧
        s.source.content = some [1, 2, 3, 4, 5] ∧ s.transfer.read = [1, 2, 3] ∧
        s.err = .timeout :=
    ⟨_, rfl, rfl, rfl, rfl, rfl⟩
  exact ⟨s, .play (fun _ _ _ => ControlSend.play_step) (.start fiveByteBlock_start) hs,
    hfacts⟩

end Iocom
