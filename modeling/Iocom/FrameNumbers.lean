import Iocom.BlockIdentifiers
import Iocom.FlowSteps
import Iocom.FrameReassembly

/-!
# Frame numbers

A frame takes its number when its header is generated, and the number advances
when `ioc_make_data_frame` or `ioc_finish_frame` goes through with the frame.
The other end expects the number after the one it received last, so a gap in
the numbers shows unless it is a whole cycle long.
-/

namespace Iocom

variable {checksum : List UInt8 → ℕ}

/-- `ioc_generate_header` and `ioc_finish_frame` for a system frame; `none` when
flow control cancels it. -/
def makeSystemFrame (con : Connection) (mblkId : ℤ) (content : List UInt8) :
    Option (Connection × Frame) :=
  (con.finishFrame (headerSize con.isSocket (osUint mblkId) 0 + content.length)).map
    fun con' => (con', systemFrame con.frameOutNr (osUint mblkId) content)

structure NumberedSender where
  con : Connection
  wire : List Message

/-- What happens at the sending end: it tries to send a data frame, a system
frame or an acknowledgement, it writes to the stream, or it handles something
received. -/
inductive SenderAction where
  | dataFrame (mblk : MemoryBlock) (sbuf : SourceBuffer)
  | systemFrame (mblkId : ℤ) (content : List UInt8)
  | acknowledge
  | write (accepted : ℕ)
  | receive (message : FlowMessage) (bytes : ℕ)

def NumberedSender.step (s : NumberedSender) : SenderAction → NumberedSender
  | .dataFrame mblk sbuf =>
      if s.con.frameOutUsed ≠ 0 then s
      else
        match makeDataFrame s.con mblk sbuf with
        | none => s
        | some (con, _, frame) => ⟨con, s.wire ++ [.frame frame]⟩
  | .systemFrame mblkId content =>
      if s.con.frameOutUsed ≠ 0 then s
      else
        match makeSystemFrame s.con mblkId content with
        | none => s
        | some (con, frame) => ⟨con, s.wire ++ [.frame frame]⟩
  | .acknowledge =>
      if s.con.frameOutUsed ≠ 0 then s
      else
        ⟨s.con.putAcknowledge.1,
          s.wire ++ [.acknowledge (s.con.bytesReceived % s.con.ackModulus)]⟩
  | .write accepted => { s with con := s.con.writeToStream accepted }
  | .receive message bytes =>
      { s with
        con :=
          { s.con.handle message with
            bytesReceived := (s.con.bytesReceived + bytes) % 0x100000000 } }

def NumberedSender.run (s : NumberedSender) (actions : List SenderAction) :
    NumberedSender :=
  actions.foldl NumberedSender.step s

/-- `ioc_reset_connection_state`. -/
def Connection.opened (con : Connection) : NumberedSender :=
  ⟨{ con with frameOutNr := 0, frameOutPos := 0, frameOutUsed := 0 }, []⟩

def framesOf (messages : List Message) : List Frame :=
  messages.filterMap fun message =>
    match message with
    | .acknowledge _ => none
    | .frame sent => some sent

/-- The number of the frame which `k` frames go before: 0 for the first one,
and then 1 .. `IOC_MAX_FRAME_NR` over and over. -/
def frameNrAt (k : ℕ) : ℕ := if k = 0 then 0 else (k - 1) % maxFrameNr + 1

/-! ## Counting -/

theorem frameNrAt_succ (k : ℕ) : nextFrameNr (frameNrAt k) = frameNrAt (k + 1) := by
  unfold nextFrameNr frameNrAt maxFrameNr
  rw [if_neg (Nat.succ_ne_zero k), Nat.add_sub_cancel]
  split
  next hzero => simp [hzero]
  next hpos =>
    split
    next hwrap => omega
    next hsmall => omega

theorem frameNrAt_le (k : ℕ) : frameNrAt k ≤ maxFrameNr := by
  have hlt : (k - 1) % maxFrameNr < maxFrameNr := Nat.mod_lt _ (by decide)
  unfold frameNrAt
  split
  · exact Nat.zero_le _
  · exact hlt

theorem frameNrAt_ne (k : ℕ) {m : ℕ} (hpos : 0 < m) (hlt : m < maxFrameNr) :
    frameNrAt (k + m) ≠ frameNrAt k := by
  unfold maxFrameNr at hlt
  unfold frameNrAt maxFrameNr
  rw [if_neg (by omega)]
  split
  · omega
  · omega

theorem framesOf_append (messages rest : List Message) :
    framesOf (messages ++ rest) = framesOf messages ++ framesOf rest :=
  List.filterMap_append

theorem mem_framesOf {messages : List Message} {sent : Frame} :
    sent ∈ framesOf messages ↔ .frame sent ∈ messages := by
  unfold framesOf
  rw [List.mem_filterMap]
  constructor
  · rintro ⟨message, hmem, hframe⟩
    cases message with
    | acknowledge => cases hframe
    | frame sent' =>
        obtain rfl := Option.some.inj hframe
        exact hmem
  · intro hmem
    exact ⟨_, hmem, rfl⟩

theorem numbered_iff (messages : List Message) (k : ℕ) :
    Numbered (frameNrAt k) messages ↔
      ∀ i, ∀ sent ∈ (framesOf messages)[i]?, sent.frameNr = frameNrAt (k + i) := by
  induction messages generalizing k with
  | nil => simp [Numbered, framesOf]
  | cons message messages ih =>
      cases message with
      | acknowledge => exact ih k
      | frame first =>
          have hcons : framesOf (.frame first :: messages) =
              first :: framesOf messages := rfl
          rw [hcons]
          change (first.frameNr = frameNrAt k ∧ Numbered _ messages) ↔ _
          rw [frameNrAt_succ, ih (k + 1)]
          constructor
          · rintro ⟨hfirst, hrest⟩ i sent hsent
            cases i with
            | zero =>
                obtain rfl : first = sent := by simpa using hsent
                exact hfirst
            | succ i =>
                rw [List.getElem?_cons_succ] at hsent
                rw [hrest i sent hsent]
                congr 1
                omega
          · intro hall
            refine ⟨hall 0 first rfl, fun i sent hsent => ?_⟩
            rw [hall (i + 1) sent (by rwa [List.getElem?_cons_succ])]
            congr 1
            omega

/-! ## The sending end -/

def Message.Placed (isSocket : Bool) : Message → Prop
  | .acknowledge rbytes => rbytes < ackModulusOf isSocket
  | .frame sent => sent.mblkId < 0x100000000 ∧ sent.addr < 0x100000000

/-- The frames on the wire are numbered by position, and the next number is the
one of the next position. -/
structure NumberedSender.Counts (s : NumberedSender) : Prop where
  numbers : ∀ i, ∀ sent ∈ (framesOf s.wire)[i]?, sent.frameNr = frameNrAt i
  next : s.con.frameOutNr = frameNrAt (framesOf s.wire).length
  placed : ∀ message ∈ s.wire, message.Placed s.con.isSocket

theorem Connection.opened_counts (con : Connection) : con.opened.Counts where
  numbers := fun i sent hsent => by simp [Connection.opened, framesOf] at hsent
  next := rfl
  placed := fun message hmem => by cases hmem

theorem NumberedSender.Counts.same {s : NumberedSender} (h : s.Counts)
    {con : Connection} (hnr : con.frameOutNr = s.con.frameOutNr)
    (hsocket : con.isSocket = s.con.isSocket) :
    ({ s with con := con } : NumberedSender).Counts where
  numbers := h.numbers
  next := hnr.trans h.next
  placed := by
    dsimp only
    rw [hsocket]
    exact h.placed

theorem NumberedSender.Counts.frame {s : NumberedSender} (h : s.Counts)
    {con : Connection} {frame : Frame} (hnr : frame.frameNr = s.con.frameOutNr)
    (hnext : con.frameOutNr = nextFrameNr s.con.frameOutNr)
    (hsocket : con.isSocket = s.con.isSocket)
    (hplaced : (Message.frame frame).Placed s.con.isSocket) :
    (⟨con, s.wire ++ [.frame frame]⟩ : NumberedSender).Counts := by
  have hframes : framesOf (s.wire ++ [.frame frame]) = framesOf s.wire ++ [frame] :=
    framesOf_append _ _
  exact
    { numbers := fun i sent hsent => by
        dsimp only at hsent
        rw [hframes, List.getElem?_append] at hsent
        split at hsent
        · exact h.numbers i sent hsent
        next hge =>
          rw [List.getElem?_singleton] at hsent
          split at hsent
          next hzero =>
            obtain rfl := Option.some.inj hsent
            rw [hnr, h.next]
            congr 1
            omega
          next => cases hsent
      next := by
        dsimp only
        rw [hframes, List.length_append, hnext, h.next, frameNrAt_succ]
        rfl
      placed := fun message hmem => by
        dsimp only at hmem ⊢
        rw [hsocket]
        rcases List.mem_append.mp hmem with hold | hlast
        · exact h.placed message hold
        · rw [List.mem_singleton.mp hlast]
          exact hplaced }

theorem makeDataFrame_number
    {con con' : Connection} {mblk : MemoryBlock} {sbuf sbuf' : SourceBuffer}
    {frame : Frame}
    (hmake : makeDataFrame con mblk sbuf = some (con', sbuf', frame)) :
    frame.frameNr = con.frameOutNr ∧ con'.frameOutNr = nextFrameNr con.frameOutNr ∧
      con'.isSocket = con.isSocket := by
  unfold makeDataFrame at hmake
  dsimp only at hmake
  split at hmake
  · contradiction
  simp only [Option.some.injEq, Prod.mk.injEq] at hmake
  obtain ⟨rfl, -, rfl⟩ := hmake
  exact ⟨rfl, rfl, rfl⟩

theorem makeSystemFrame_number
    {con con' : Connection} {mblkId : ℤ} {content : List UInt8} {frame : Frame}
    (hmake : makeSystemFrame con mblkId content = some (con', frame)) :
    frame = systemFrame con.frameOutNr (osUint mblkId) content ∧
      con'.frameOutNr = nextFrameNr con.frameOutNr ∧ con'.isSocket = con.isSocket := by
  unfold makeSystemFrame Connection.finishFrame at hmake
  split at hmake
  · cases hmake
  · simp only [Option.map_some, Option.some.injEq, Prod.mk.injEq] at hmake
    obtain ⟨rfl, rfl⟩ := hmake
    exact ⟨rfl, rfl, rfl⟩

/-- What one action does to the numbers: a cancelled frame takes none. -/
theorem NumberedSender.Counts.step {s : NumberedSender} (h : s.Counts)
    (action : SenderAction) : (s.step action).Counts := by
  cases action with
  | dataFrame mblk sbuf =>
      simp only [NumberedSender.step]
      split
      · exact h
      cases hmake : makeDataFrame s.con mblk sbuf with
      | none => exact h
      | some made =>
          obtain ⟨con, sbuf', frame⟩ := made
          obtain ⟨hnr, hnext, hsocket⟩ := makeDataFrame_number hmake
          obtain ⟨hid, haddr⟩ := makeDataFrame_address hmake
          refine h.frame hnr hnext hsocket ⟨?_, ?_⟩
          · rw [hid]
            exact osUint_lt _
          · rw [haddr]
            exact osUint_lt _
  | systemFrame mblkId content =>
      simp only [NumberedSender.step]
      split
      · exact h
      cases hmake : makeSystemFrame s.con mblkId content with
      | none => exact h
      | some made =>
          obtain ⟨con, frame⟩ := made
          obtain ⟨rfl, hnext, hsocket⟩ := makeSystemFrame_number hmake
          have haddr : 0 < 0x100000000 := by decide
          exact h.frame rfl hnext hsocket ⟨osUint_lt _, haddr⟩
  | acknowledge =>
      simp only [NumberedSender.step]
      split
      · exact h
      · have hframes : framesOf (s.wire ++
            [.acknowledge (s.con.bytesReceived % s.con.ackModulus)]) =
              framesOf s.wire := by
          rw [framesOf_append]
          exact List.append_nil _
        exact
          { numbers := by
              rw [hframes]
              exact h.numbers
            next := by
              rw [hframes]
              exact h.next
            placed := fun message hmem => by
              rcases List.mem_append.mp hmem with hold | hlast
              · exact h.placed message hold
              · rw [List.mem_singleton.mp hlast]
                apply Nat.mod_lt
                unfold Connection.ackModulus
                split
                · decide
                · decide }
  | write accepted =>
      have hnr : (s.con.writeToStream accepted).frameOutNr = s.con.frameOutNr := by
        rw [s.con.writeToStream_same accepted]
      have hsocket : (s.con.writeToStream accepted).isSocket = s.con.isSocket := by
        rw [s.con.writeToStream_same accepted]
      exact h.same hnr hsocket
  | receive message bytes =>
      have hnr : (s.con.handle message).frameOutNr = s.con.frameOutNr := by
        rw [s.con.handle_same message]
      have hsocket : (s.con.handle message).isSocket = s.con.isSocket := by
        rw [s.con.handle_same message]
      exact h.same hnr hsocket

theorem NumberedSender.Counts.run {s : NumberedSender} (h : s.Counts)
    (actions : List SenderAction) : (s.run actions).Counts := by
  induction actions generalizing s with
  | nil => exact h
  | cons action actions ih => exact ih (h.step action)

/-! ## The receiving end -/

def Message.Fits (isSocket : Bool) (frameSz : ℤ) : Message → Prop
  | .acknowledge _ => True
  | .frame sent =>
      ((headerSize isSocket sent.mblkId sent.addr + sent.payload.length : ℕ) : ℤ) ≤
        frameSz

theorem NumberedSender.Counts.numbered {s : NumberedSender} (h : s.Counts) :
    Numbered 0 s.wire := by
  apply (numbered_iff s.wire 0).mpr
  intro i sent hsent
  rw [h.numbers i sent hsent, Nat.zero_add]

theorem NumberedSender.Counts.frameNr_le {s : NumberedSender} (h : s.Counts)
    {sent : Frame} (hmem : .frame sent ∈ s.wire) : sent.frameNr ≤ maxFrameNr := by
  obtain ⟨i, hi⟩ := List.mem_iff_getElem?.mp (mem_framesOf.mpr hmem)
  rw [h.numbers i sent hi]
  exact frameNrAt_le i

theorem NumberedSender.Counts.wellFormed {s : NumberedSender} (h : s.Counts)
    {frameSz : ℤ} (hfits : ∀ message ∈ s.wire, message.Fits s.con.isSocket frameSz)
    {message : Message} (hmem : message ∈ s.wire) :
    message.WellFormed s.con.isSocket frameSz := by
  have hplaced := h.placed message hmem
  have hfit := hfits message hmem
  cases message with
  | acknowledge => exact hplaced
  | frame sent => exact ⟨h.frameNr_le hmem, hplaced.1, hplaced.2, hfit⟩

/-- What is expected after some messages, by the number of frames in them. -/
theorem Numbered.foldl_nextNr {messages : List Message} {k : ℕ}
    (h : Numbered (frameNrAt k) messages) :
    messages.foldl Message.nextNr (frameNrAt k) =
      frameNrAt (k + (framesOf messages).length) := by
  induction messages generalizing k with
  | nil => rfl
  | cons message messages ih =>
      cases message with
      | acknowledge => exact ih h
      | frame sent =>
          obtain ⟨hnr, h⟩ := h
          rw [frameNrAt_succ] at h
          have hcons : framesOf (.frame sent :: messages) =
              sent :: framesOf messages := rfl
          rw [List.foldl_cons, hcons, List.length_cons]
          change messages.foldl Message.nextNr (nextFrameNr sent.frameNr) = _
          rw [hnr, frameNrAt_succ, ih h]
          congr 1
          omega

/-- A frame with a wrong number is an error as soon as a byte of it is read. -/
theorem connectionReceive_wrongNr
    {con : Connection} {frameIn : FrameIn} {next : Frame} {tail : List UInt8}
    (reads : List ℕ) (hbuf : frameIn.buf = [])
    (hle : next.frameNr ≤ maxFrameNr) (hne : next.frameNr ≠ frameIn.frameNr) :
    (0 < reads.headD 0 → connectionReceive checksum con frameIn
        (next.encode checksum con.isSocket ++ tail) reads = none) ∧
      (reads.headD 0 = 0 → connectionReceive checksum con frameIn
          (next.encode checksum con.isSocket ++ tail) reads =
        some (none,
          { con with bytesReceived := con.bytesReceived % 0x100000000 }, frameIn,
          next.encode checksum con.isSocket ++ tail)) := by
  have hpos : 0 < ackSizeOf con.isSocket := by
    cases con.isSocket <;> decide
  have hexpect : ReadFrameState.expect
      ⟨con.isSocket, con.frameSz, frameIn.frameNr, [], 0, 0, 0, 0, 0⟩ = some
        ⟨con.isSocket, con.frameSz, frameIn.frameNr, [], 0,
          ackSizeOf con.isSocket, 0xFFFF, 0, 0⟩ := by
    have hend : ¬headerFieldsEnd con.isSocket ≤ 0 := by
      cases con.isSocket <;> decide
    unfold ReadFrameState.expect
    dsimp only
    rw [List.length_nil, if_neg (by omega), if_neg hend, if_neg (by omega)]
  have hhead := @Frame.encode_head checksum con.isSocket next
  unfold maxFrameNr at hle
  have hlength := @Frame.encode_length checksum con.isSocket next
  have hheader := headerSize_pos con.isSocket next.mblkId next.addr
  generalize next.encode checksum con.isSocket = bytes at hhead hlength ⊢
  unfold connectionReceive
  rw [hbuf]
  constructor
  · intro hgiven
    cases reads with
    | nil => exact absurd hgiven (lt_irrefl 0)
    | cons given reads =>
        change 0 < given at hgiven
        have hdata : (bytes ++ tail).take (min given (ackSizeOf con.isSocket)) ≠ [] := by
          intro hnil
          have hzero := congrArg List.length hnil
          rw [List.length_take, List.length_append, List.length_nil] at hzero
          omega
        have hfirst : (((bytes ++ tail).take
            (min given (ackSizeOf con.isSocket))).getD 0 0).toNat = next.frameNr := by
          rw [take_head (by omega), List.getD_eq_getElem?_getD,
            List.getElem?_append_left (by omega), ← List.getD_eq_getElem?_getD, hhead]
          omega
        have herror : (next.frameNr ≠ acknowledgeByte ∧
            next.frameNr ≠ frameIn.frameNr) := by
          unfold acknowledgeByte
          exact ⟨by omega, hne⟩
        simp only [readFrameLoop, hexpect, List.length_nil, Nat.sub_zero,
          List.nil_append, hfirst]
        rw [if_neg hpos.ne', if_pos ⟨hdata, herror⟩]
  · intro hgiven
    have hloop : readFrameLoop ⟨con.isSocket, con.frameSz, frameIn.frameNr, [],
        0, 0, 0, 0, 0⟩ (bytes ++ tail) reads =
          some (⟨con.isSocket, con.frameSz, frameIn.frameNr, [], 0,
            ackSizeOf con.isSocket, 0xFFFF, 0, 0⟩, bytes ++ tail) := by
      cases reads with
      | nil => simp only [readFrameLoop, hexpect, Option.map_some]
      | cons given reads =>
          obtain rfl : given = 0 := hgiven
          simp only [readFrameLoop, hexpect, List.length_nil, Nat.zero_min,
            List.take_zero, List.append_nil, List.drop_zero, ne_eq,
            not_true_eq_false, false_and, if_false, Nat.add_zero]
          rw [if_neg hpos.ne', if_neg fun h => hpos.ne h.1]
    rw [hloop]
    dsimp only [List.length_nil]
    rw [if_pos hpos, ← hbuf, Nat.add_zero]

/-- Between two calls, when the frame after the given messages is not the one
which is expected then. -/
structure Missing
    (checksum : List UInt8 → ℕ) (con : Connection) (frameIn : FrameIn)
    (stream : List UInt8) (messages : List Message) (next : Frame)
    (tail : List UInt8) : Prop where
  frameSz : con.frameSz ≤ maxFrameSzOf con.isSocket
  wellFormed : ∀ message ∈ messages, message.WellFormed con.isSocket con.frameSz
  numbered : Numbered frameIn.frameNr messages
  bytes : frameIn.buf ++ stream = encodeAll checksum con.isSocket messages ++
    (next.encode checksum con.isSocket ++ tail)
  unfinished : ∀ message ∈ messages.head?,
    frameIn.buf.length < (message.encode checksum con.isSocket).length
  nothing : messages = [] → frameIn.buf = []
  nextNr : next.frameNr ≤ maxFrameNr
  wrong : messages.foldl Message.nextNr frameIn.frameNr ≠ next.frameNr

theorem Missing.remaining
    {con : Connection} {frameIn : FrameIn} {stream : List UInt8}
    {messages : List Message} {next : Frame} {tail : List UInt8}
    (h : Missing checksum con frameIn stream messages next tail) :
    (next.encode checksum con.isSocket ++ tail).length ≤ stream.length := by
  have hbytes := congrArg List.length h.bytes
  rw [List.length_append, List.length_append] at hbytes
  cases messages with
  | nil =>
      rw [h.nothing rfl] at hbytes
      change 0 + stream.length = 0 + _ at hbytes
      omega
  | cons message messages =>
      have hlt := h.unfinished message rfl
      have hcons : encodeAll checksum con.isSocket (message :: messages) =
          message.encode checksum con.isSocket ++
            encodeAll checksum con.isSocket messages := rfl
      rw [hcons, List.length_append] at hbytes
      omega

/-- One call receives the next message, or finds the wrong number. -/
theorem Missing.receive
    {con : Connection} {frameIn : FrameIn} {stream : List UInt8}
    {messages : List Message} {next : Frame} {tail : List UInt8}
    (h : Missing checksum con frameIn stream messages next tail) (reads : List ℕ) :
    connectionReceive checksum con frameIn stream reads = none ∨
      ∃ received con' frameIn' stream' rest,
        connectionReceive checksum con frameIn stream reads =
          some (received, con', frameIn', stream') ∧
        messages = received.toList ++ rest ∧
        Missing checksum con' frameIn' stream' rest next tail ∧
        con'.isSocket = con.isSocket ∧ stream'.length ≤ stream.length ∧
        (0 < reads.headD 0 → stream'.length < stream.length) := by
  cases messages with
  | nil =>
      have hbuf := h.nothing rfl
      have hstream : stream = next.encode checksum con.isSocket ++ tail := by
        have hbytes := h.bytes
        rw [hbuf] at hbytes
        exact hbytes
      obtain ⟨hbad, hzero⟩ := @connectionReceive_wrongNr checksum con frameIn next tail
        reads hbuf h.nextNr h.wrong.symm
      rw [hstream]
      by_cases hgiven : 0 < reads.headD 0
      · exact .inl (hbad hgiven)
      · right
        refine ⟨_, _, _, _, [], hzero (by omega), rfl, ?_, rfl, le_rfl,
          fun hpos => absurd hpos hgiven⟩
        exact
          { frameSz := h.frameSz
            wellFormed := h.wellFormed
            numbered := h.numbered
            bytes := by
              rw [hbuf]
              rfl
            unfinished := fun message hmem => by cases hmem
            nothing := fun _ => hbuf
            nextNr := h.nextNr
            wrong := h.wrong }
  | cons message messages =>
      right
      have hbytes : frameIn.buf ++ stream = message.encode checksum con.isSocket ++
          (encodeAll checksum con.isSocket messages ++
            (next.encode checksum con.isSocket ++ tail)) := by
        rw [h.bytes]
        exact List.append_assoc _ _ _
      obtain ⟨received, con', frameIn', stream', hrun, hsocket, hsz, hle, -,
          hprogress, hcase⟩ :=
        receive_message reads (h.wellFormed message (List.mem_cons_self ..)) h.frameSz
          h.numbered.head hbytes (h.unfinished message rfl)
      have hframeSz : con'.frameSz ≤ maxFrameSzOf con'.isSocket := by
        rw [hsz, hsocket]
        exact h.frameSz
      rcases hcase with ⟨rfl, rfl, rfl⟩ | ⟨rfl, hnr, hbytes', hshort⟩
      · refine ⟨_, _, _, _, messages, hrun, rfl, ?_, hsocket, hle, hprogress⟩
        have hrest : ∀ sent ∈ messages,
            sent.WellFormed con'.isSocket con'.frameSz := by
          rw [hsz, hsocket]
          exact fun sent hmem => h.wellFormed sent (List.mem_cons_of_mem _ hmem)
        rw [← hsocket]
        have hstart := @Receiving.start checksum con' _ messages hframeSz hrest
          h.numbered.rest
        exact
          { frameSz := hframeSz
            wellFormed := hrest
            numbered := h.numbered.rest
            bytes := rfl
            unfinished := hstart.unfinished
            nothing := fun _ => rfl
            nextNr := h.nextNr
            wrong := h.wrong }
      · refine ⟨_, _, _, _, message :: messages, hrun, rfl, ?_, hsocket, hle, hprogress⟩
        exact
          { frameSz := hframeSz
            wellFormed := by
              rw [hsz, hsocket]
              exact h.wellFormed
            numbered := by
              rw [hnr]
              exact h.numbered
            bytes := by
              rw [hsocket, hbytes']
              exact (List.append_assoc _ _ _).symm
            unfinished := fun first hfirst => by
              obtain rfl : message = first := Option.some.inj hfirst
              rw [hsocket]
              exact hshort
            nothing := fun hnil => absurd hnil (List.cons_ne_nil _ _)
            nextNr := h.nextNr
            wrong := by
              rw [hnr]
              exact h.wrong }

/-- Calls find the wrong number before anything of the frame is handled. -/
theorem Missing.calls
    {con : Connection} {frameIn : FrameIn} {stream : List UInt8}
    {messages : List Message} {next : Frame} {tail : List UInt8}
    (h : Missing checksum con frameIn stream messages next tail)
    (calls : List (List ℕ)) :
    receiveCalls checksum con frameIn stream calls = none ∨
      ∃ received con' frameIn' stream' rest,
        receiveCalls checksum con frameIn stream calls =
          some (received, con', frameIn', stream') ∧
        messages = received ++ rest ∧
        Missing checksum con' frameIn' stream' rest next tail ∧
        con'.isSocket = con.isSocket ∧
        stream'.length + (calls.countP fun reads => decide (0 < reads.headD 0)) ≤
          stream.length := by
  induction calls generalizing con frameIn stream messages with
  | nil =>
      right
      exact ⟨_, _, _, _, messages, rfl, rfl, h, rfl, by simp⟩
  | cons reads calls ih =>
      rcases h.receive reads with hnone | ⟨first, con₁, frameIn₁, stream₁, rest₁,
        hfirst, hmessages, h₁, hsocket₁, hle₁, hprogress₁⟩
      · left
        simp only [receiveCalls, hnone]
      rcases ih h₁ with hnone | ⟨received, con', frameIn', stream', rest, hrun, hrest,
        h', hsocket, hcount⟩
      · left
        simp only [receiveCalls, hfirst, hnone, Option.map_none]
      · right
        refine ⟨first.toList ++ received, con', frameIn', stream', rest, ?_, ?_, h',
          hsocket.trans hsocket₁, ?_⟩
        · simp only [receiveCalls, hfirst, hrun, Option.map_some]
        · rw [hmessages, hrest, List.append_assoc]
        · rw [List.countP_cons]
          by_cases hgiven : 0 < reads.headD 0
          · have := hprogress₁ hgiven
            simp only [hgiven, decide_true, if_true]
            omega
          · simp only [hgiven, decide_false, Bool.false_eq_true, if_false]
            omega

/-! ## Frame numbering -/

structure FrameNumbering (checksum : List UInt8 → ℕ) (s : NumberedSender) : Prop where
  numbers : ∀ i, ∀ sent ∈ (framesOf s.wire)[i]?, sent.frameNr = frameNrAt i
  next : s.con.frameOutNr = frameNrAt (framesOf s.wire).length
  notAcknowledge : ∀ sent, .frame sent ∈ s.wire → sent.frameNr ≠ acknowledgeByte
  expected : ∀ reader : Connection, reader.isSocket = s.con.isSocket →
    reader.frameSz ≤ maxFrameSzOf reader.isSocket →
    (∀ message ∈ s.wire, message.Fits s.con.isSocket reader.frameSz) →
    ∀ calls, ∃ received reader' frameIn stream rest,
      receiveCalls checksum reader ⟨0, []⟩ (encodeAll checksum s.con.isSocket s.wire)
          calls = some (received, reader', frameIn, stream) ∧
        s.wire = received ++ rest ∧
        frameIn.frameNr = frameNrAt (framesOf received).length
  lost : ∀ (before lost after kept : List Message) (next : Frame),
    s.wire = before ++ lost ++ .frame next :: after →
    0 < (framesOf lost).length → (framesOf lost).length < maxFrameNr →
    kept.Sublist lost → framesOf kept = [] →
    ∀ reader : Connection, reader.isSocket = s.con.isSocket →
    reader.frameSz ≤ maxFrameSzOf reader.isSocket →
    (∀ message ∈ s.wire, message.Fits s.con.isSocket reader.frameSz) →
    ∀ (tail : List UInt8) calls,
      (receiveCalls checksum reader ⟨0, []⟩
          (encodeAll checksum s.con.isSocket (before ++ kept) ++
            (next.encode checksum s.con.isSocket ++ tail)) calls = none ∨
        ∃ received reader' frameIn stream rest,
          receiveCalls checksum reader ⟨0, []⟩
              (encodeAll checksum s.con.isSocket (before ++ kept) ++
                (next.encode checksum s.con.isSocket ++ tail)) calls =
            some (received, reader', frameIn, stream) ∧
          before ++ kept = received ++ rest) ∧
      ((encodeAll checksum s.con.isSocket (before ++ kept)).length <
          (calls.countP fun reads => decide (0 < reads.headD 0)) →
        receiveCalls checksum reader ⟨0, []⟩
          (encodeAll checksum s.con.isSocket (before ++ kept) ++
            (next.encode checksum s.con.isSocket ++ tail)) calls = none)

theorem Numbered.left {nr : ℕ} {messages rest : List Message}
    (h : Numbered nr (messages ++ rest)) : Numbered nr messages := by
  induction messages generalizing nr with
  | nil => trivial
  | cons message messages ih =>
      cases message with
      | acknowledge => exact ih h
      | frame sent => exact ⟨h.1, ih h.2⟩

theorem Numbered.append {nr : ℕ} {messages rest : List Message}
    (h : Numbered nr messages) (hrest : framesOf rest = []) :
    Numbered nr (messages ++ rest) := by
  induction messages generalizing nr with
  | nil =>
      induction rest with
      | nil => trivial
      | cons message rest ih =>
          cases message with
          | acknowledge => exact ih hrest
          | frame => cases hrest
  | cons message messages ih =>
      cases message with
      | acknowledge => exact ih h
      | frame sent => exact ⟨h.1, ih h.2⟩

/-- Frames are numbered 0, 1 .. `IOC_MAX_FRAME_NR`, 1 .. without a gap in every
run, the other end expects these numbers, and a gap of less than a cycle is an
error. -/
theorem frame_numbering
    (checksum : List UInt8 → ℕ) (con : Connection) (actions : List SenderAction) :
    FrameNumbering checksum (con.opened.run actions) := by
  have h := con.opened_counts.run actions
  generalize con.opened.run actions = s at h
  exact
    { numbers := h.numbers
      next := h.next
      notAcknowledge := fun sent hmem => by
        have hle := h.frameNr_le hmem
        unfold maxFrameNr at hle
        unfold acknowledgeByte
        omega
      expected := fun reader hsocket hsize hfits calls => by
        rw [← hsocket]
        obtain ⟨received, reader', frameIn, stream, rest, hrun, hwire, -, -, -, -, -,
            hnr⟩ :=
          (@Receiving.start checksum reader 0 s.wire hsize
            (fun message hmem => by
              rw [hsocket]
              exact h.wellFormed hfits hmem) h.numbered).calls calls
        refine ⟨received, reader', frameIn, stream, rest, hrun, hwire, ?_⟩
        have hleft : Numbered (frameNrAt 0) received := by
          have hall := h.numbered
          rw [hwire] at hall
          exact hall.left
        rw [hnr]
        change received.foldl Message.nextNr (frameNrAt 0) = _
        rw [hleft.foldl_nextNr, Nat.zero_add]
      lost := fun before lost after kept next hwire hpos hlt hkept hnone reader
          hsocket hsize hfits tail calls => by
        have hbefore : Numbered (frameNrAt 0) before := by
          have hall := h.numbered
          rw [hwire, List.append_assoc] at hall
          exact hall.left
        have hnumbered : Numbered (frameNrAt 0) (before ++ kept) :=
          hbefore.append hnone
        have hnext : next.frameNr =
            frameNrAt ((framesOf before).length + (framesOf lost).length) := by
          apply h.numbers
          rw [hwire, framesOf_append, framesOf_append, ← List.length_append,
            List.getElem?_append_right le_rfl, Nat.sub_self]
          rfl
        have hmissing : Missing checksum reader ⟨0, []⟩
            (encodeAll checksum reader.isSocket (before ++ kept) ++
              (next.encode checksum reader.isSocket ++ tail))
            (before ++ kept) next tail :=
          { frameSz := hsize
            wellFormed := fun message hmem => by
              rw [hsocket]
              apply h.wellFormed hfits
              rw [hwire]
              rcases List.mem_append.mp hmem with hold | hack
              · simp [hold]
              · simp [hkept.subset hack]
            numbered := hnumbered
            bytes := rfl
            unfinished := fun message _ => by
              have hack : 0 < ackSizeOf reader.isSocket := by
                cases reader.isSocket <;> decide
              exact lt_of_lt_of_le hack (message.encode_pos reader.isSocket)
            nothing := fun _ => rfl
            nextNr := by
              rw [hnext]
              exact frameNrAt_le _
            wrong := by
              change (before ++ kept).foldl Message.nextNr (frameNrAt 0) ≠ _
              rw [hnumbered.foldl_nextNr, framesOf_append, hnone, List.append_nil,
                Nat.zero_add, hnext]
              exact (frameNrAt_ne _ hpos hlt).symm }
        rw [← hsocket]
        rcases hmissing.calls calls with herror | ⟨received, reader', frameIn,
          stream, rest, hrun, hrest, hmissing', hsocket', hcount⟩
        · exact ⟨.inl herror, fun _ => herror⟩
        · refine ⟨.inr ⟨received, reader', frameIn, stream, rest, hrun, hrest⟩,
            fun hmany => ?_⟩
          have hleft := hmissing'.remaining
          rw [hsocket'] at hleft
          rw [List.length_append] at hcount
          omega }

end Iocom
