import Iocom.SwitchboxAuth

/-!
# The switchbox authentication exchange

What arrives is one frame from the beginning of the stream, however the stream hands it
out.  Whether the frame is an authentication message is not looked at, and what the buffer
holds behind a short frame counts as its content.
-/

namespace Iocom

open MemoryReader

/-! ## The frame which is read -/

def beginsAcknowledge (buf : List UInt8) : Bool := (buf.getD 0 0).toNat = acknowledgeByte

def socketNeed (buf : List UInt8) : ℕ :=
  if beginsAcknowledge buf then 4
  else if 5 ≤ buf.length then (readHeader true buf).needed true
  else if 1 ≤ buf.length then 6
  else 4

theorem beginsAcknowledge_append {buf : List UInt8} (h : 1 ≤ buf.length) (data : List UInt8) :
    beginsAcknowledge (buf ++ data) = beginsAcknowledge buf := by
  unfold beginsAcknowledge
  rw [List.getD_append _ _ _ _ h]

theorem beginsAcknowledge_pos {buf : List UInt8} (h : beginsAcknowledge buf = true) :
    1 ≤ buf.length := by
  cases buf with
  | nil => exact absurd h (by decide)
  | cons b buf => simp

theorem readHeader_append {buf : List UInt8} (h : 5 ≤ buf.length) (data : List UInt8) :
    readHeader true (buf ++ data) = readHeader true buf := by
  have hget (k : ℕ) (hk : k < 5) : (buf ++ data).getD k 0 = buf.getD k 0 :=
    List.getD_append _ _ _ _ (by omega)
  simp only [readHeader, if_true, hget 1 (by omega), hget 2 (by omega), hget 3 (by omega),
    hget 4 (by omega)]

theorem six_le_needed (fields : HeaderFields) : 6 ≤ fields.needed true := by
  unfold HeaderFields.needed
  simp only [if_true]
  omega

/-- What is read on demand is not too much for what is then known. -/
theorem socketNeed_append {buf data : List UInt8}
    (h : buf.length + data.length ≤ socketNeed buf) :
    (buf ++ data).length ≤ socketNeed (buf ++ data) := by
  rw [List.length_append]
  rcases Nat.lt_or_ge buf.length 1 with hshort | hlong
  · have hnil : buf = [] := List.length_eq_zero_iff.mp (by omega)
    subst hnil
    simp only [List.nil_append, List.length_nil, Nat.zero_add] at h ⊢
    have hfour : socketNeed [] = 4 := rfl
    rw [hfour] at h
    unfold socketNeed
    split_ifs <;> omega
  · unfold socketNeed at h ⊢
    rw [beginsAcknowledge_append hlong, List.length_append]
    have hsix := six_le_needed (readHeader true (buf ++ data))
    by_cases h5 : 5 ≤ buf.length
    · rw [readHeader_append h5]
      split_ifs at h ⊢ <;> omega
    · split_ifs at h ⊢ <;> omega

/-- The reader of a switchbox has begun with a frame of number 0, and holds no more than it
needs; extra flags are only known from the header. -/
structure ReadFrameState.Sound (rfs : ReadFrameState) : Prop where
  isSocket : rfs.isSocket = true
  frameSz : rfs.frameSz = maxAuthenticationFrameSz
  frameNr : rfs.frameNr = 0
  begun : beginsAcknowledge rfs.buf = true ∨ (rfs.buf.getD 0 0).toNat = 0
  within : rfs.buf.length ≤ socketNeed rfs.buf
  extraFlags : beginsAcknowledge rfs.buf = true ∨ rfs.buf = [] → rfs.extraFlags = 0

structure ReadFrameState.Known (rfs : ReadFrameState) : Prop where
  needed : rfs.needed = socketNeed rfs.buf
  acknowledge : beginsAcknowledge rfs.buf = true → rfs.flags = 0
  frame : beginsAcknowledge rfs.buf = false →
    5 ≤ rfs.buf.length ∧ rfs.flags = (readHeader true rfs.buf).flags ∧
      rfs.extraFlags = (readHeader true rfs.buf).extraFlags ∧
      socketNeed rfs.buf ≤ maxAuthenticationFrameSz

theorem ReadFrameState.expect_buf {rfs rfs' : ReadFrameState} (h : rfs.expect = some rfs') :
    rfs'.buf = rfs.buf := by
  unfold ReadFrameState.expect at h
  simp only at h
  split_ifs at h <;> cases h <;> rfl

theorem ReadFrameState.Sound.expect {rfs rfs' : ReadFrameState} (hrfs : rfs.Sound)
    (h : rfs.expect = some rfs') :
    rfs'.Sound ∧ rfs'.buf = rfs.buf ∧ rfs'.needed = socketNeed rfs.buf ∧
      (rfs'.dataSz ≠ 0xFFFF → rfs'.Known) ∧
      (rfs'.dataSz = 0xFFFF → rfs.buf.length < rfs'.needed) := by
  obtain ⟨hsocket, hsize, hnr, hbegun, hwithin, hextra⟩ := hrfs
  unfold ReadFrameState.expect at h
  simp only [hsocket, headerFieldsEnd, if_true] at h
  by_cases hack : beginsAcknowledge rfs.buf = true
  · have hpos := beginsAcknowledge_pos hack
    have hbyte : (rfs.buf.getD 0 0).toNat = acknowledgeByte := of_decide_eq_true hack
    have hneed : socketNeed rfs.buf = 4 := by simp [socketNeed, hack]
    rw [if_pos ⟨hbyte, hpos⟩] at h
    cases h
    refine ⟨⟨rfl, hsize, hnr, hbegun, hwithin, hextra⟩, rfl, hneed.symm, fun _ => ?_,
      fun hk => absurd hk (by simp)⟩
    exact ⟨hneed.symm, fun _ => rfl, fun hframe => by simp [hack] at hframe⟩
  · have hbyte : ¬ ((rfs.buf.getD 0 0).toNat = acknowledgeByte ∧ 1 ≤ rfs.buf.length) :=
      fun hb => hack (decide_eq_true hb.1)
    rw [if_neg hbyte] at h
    by_cases h5 : 5 ≤ rfs.buf.length
    · have hneed : socketNeed rfs.buf = (readHeader true rfs.buf).needed true := by
        simp [socketNeed, hack, h5]
      rw [if_pos h5] at h
      split_ifs at h with hbig
      cases h
      have hle : socketNeed rfs.buf ≤ maxAuthenticationFrameSz := by
        rw [hsize] at hbig
        omega
      refine ⟨⟨rfl, hsize, hnr, hbegun, hwithin, ?_⟩, rfl, hneed.symm, fun _ => ?_,
        fun hk => ?_⟩
      · rintro (hack' | hnil)
        · exact absurd hack' hack
        · simp only at hnil
          simp [hnil] at h5
      · exact ⟨hneed.symm, fun hack' => absurd hack' hack, fun _ => ⟨h5, rfl, rfl, hle⟩⟩
      · simp only at hk
        rw [hneed, HeaderFields.needed, hk] at hle
        unfold maxAuthenticationFrameSz at hle
        omega
    · rw [if_neg h5] at h
      split_ifs at h with h1
      · cases h
        refine ⟨⟨rfl, hsize, hnr, hbegun, hwithin, hextra⟩, rfl, ?_, fun hk => absurd rfl hk,
          fun _ => ?_⟩
        · simp [socketNeed, hack, h5, h1]
        · simp only
          omega
      · cases h
        refine ⟨⟨rfl, hsize, hnr, hbegun, hwithin, hextra⟩, rfl, ?_, fun hk => absurd rfl hk,
          fun _ => ?_⟩
        · simp only [socketNeed, hack, h5, h1, if_false, Bool.false_eq_true]
          rfl
        · have hack4 : ackSizeOf true = 4 := rfl
          simp only [hack4]
          omega

/-- What is known of a frame stays the same when more of it is read. -/
theorem socketNeed_append_of_known {buf : List UInt8}
    (h : beginsAcknowledge buf = false → 5 ≤ buf.length) (data : List UInt8) :
    socketNeed (buf ++ data) = socketNeed buf := by
  cases hack : beginsAcknowledge buf with
  | true =>
      have hpos := beginsAcknowledge_pos hack
      simp [socketNeed, beginsAcknowledge_append hpos, hack]
  | false =>
      have h5 := h hack
      have h5' : 5 ≤ (buf ++ data).length := by
        rw [List.length_append]
        omega
      unfold socketNeed
      rw [beginsAcknowledge_append (by omega), readHeader_append h5, if_pos h5, if_pos h5']

theorem ReadFrameState.Known.append {rfs : ReadFrameState} (h : rfs.Known) (data : List UInt8)
    (received : ℕ) :
    ({ rfs with buf := rfs.buf ++ data, bytesReceived := received } : ReadFrameState).Known := by
  have hpos : 1 ≤ rfs.buf.length := by
    cases hack : beginsAcknowledge rfs.buf with
    | true => exact beginsAcknowledge_pos hack
    | false =>
        have h5 := (h.frame hack).1
        omega
  have hneed := socketNeed_append_of_known (fun hack => (h.frame hack).1) data
  refine ⟨h.needed.trans hneed.symm, ?_, ?_⟩ <;> dsimp only <;>
    rw [beginsAcknowledge_append hpos]
  · exact h.acknowledge
  · intro hack
    obtain ⟨h5, hflags, hextra, hle⟩ := h.frame hack
    rw [readHeader_append h5, hneed, List.length_append]
    exact ⟨by omega, hflags, hextra, hle⟩

theorem ReadFrameState.Sound.append {rfs : ReadFrameState} (h : rfs.Sound) {data : List UInt8}
    (hfits : rfs.buf.length + data.length ≤ socketNeed rfs.buf)
    (haccepted : ¬ (data ≠ [] ∧ ((rfs.buf ++ data).getD 0 0).toNat ≠ acknowledgeByte ∧
      ((rfs.buf ++ data).getD 0 0).toNat ≠ rfs.frameNr)) (received : ℕ) :
    ({ rfs with buf := rfs.buf ++ data, bytesReceived := received } : ReadFrameState).Sound := by
  refine ⟨h.isSocket, h.frameSz, h.frameNr, ?_, socketNeed_append hfits, ?_⟩ <;> dsimp only
  · rcases eq_or_ne data [] with rfl | hdata
    · rw [List.append_nil]
      exact h.begun
    · rw [h.frameNr] at haccepted
      unfold beginsAcknowledge
      rw [decide_eq_true_eq]
      by_contra hnot
      exact haccepted ⟨hdata, not_or.mp hnot⟩
  · intro hbuf
    refine h.extraFlags ?_
    rcases Nat.eq_zero_or_pos rfs.buf.length with hzero | hpos
    · exact .inr (List.length_eq_zero_iff.mp hzero)
    · rw [beginsAcknowledge_append hpos] at hbuf
      rcases hbuf with hack | hnil
      · exact .inl hack
      · exact .inr (List.append_eq_nil_iff.mp hnil).1

/-- However the stream hands out its bytes, the reader takes them in order, and either
needs more or has a whole frame. -/
theorem readFrameLoop_sound {rfs rfs' : ReadFrameState} {stream stream' : List UInt8}
    {reads : List ℕ} (hrfs : rfs.Sound)
    (h : readFrameLoop rfs stream reads = some (rfs', stream')) :
    rfs'.Sound ∧ rfs'.buf ++ stream' = rfs.buf ++ stream ∧
      (rfs'.buf.length < rfs'.needed ∨ rfs'.Known ∧ rfs'.needed = rfs'.buf.length) := by
  induction reads generalizing rfs stream with
  | nil =>
      obtain ⟨r, hr, heq⟩ := Option.map_eq_some_iff.mp h
      cases heq
      obtain ⟨hsound, hbuf, hneed, hknown, hunknown⟩ := hrfs.expect hr
      refine ⟨hsound, by rw [hbuf], ?_⟩
      rw [hbuf]
      rcases Nat.lt_or_ge rfs.buf.length rfs'.needed with hlt | hge
      · exact .inl hlt
      · have hle := hrfs.within
        exact .inr ⟨hknown fun hk => by have := hunknown hk; omega, by omega⟩
  | cons given reads ih =>
      unfold readFrameLoop at h
      cases hr : rfs.expect with
      | none => simp [hr] at h
      | some r =>
          obtain ⟨hsound, hbuf, hneed, hknown, hunknown⟩ := hrfs.expect hr
          have hwithin := hrfs.within
          rw [hr] at h
          dsimp only at h
          split_ifs at h with hall hwrong hagain
          · cases h
            refine ⟨hsound, by rw [hbuf], .inr ⟨hknown fun hk => ?_, hall⟩⟩
            have hlt := hunknown hk
            rw [hbuf] at hall
            omega
          all_goals
            generalize hdata : stream.take (min given (r.needed - r.buf.length)) = data at *
            have hlength : data.length ≤ r.needed - r.buf.length := by
              rw [← hdata, List.length_take]
              omega
            have hsplit : data ++ stream.drop data.length = stream := by
              rw [← hdata, List.length_take]
              rcases Nat.le_total (min given (r.needed - r.buf.length)) stream.length
                with hle | hle
              · rw [Nat.min_eq_left hle, List.take_append_drop]
              · rw [Nat.min_eq_right hle, List.take_of_length_le hle, List.drop_length,
                  List.append_nil]
            have hfits : r.buf.length + data.length ≤ socketNeed r.buf := by
              rw [hbuf] at hlength ⊢
              omega
            have hnext := hsound.append hfits hwrong (r.bytesReceived + data.length)
          · obtain ⟨hsound', hbytes, hend⟩ := ih hnext h
            refine ⟨hsound', ?_, hend⟩
            rw [hbytes, List.append_assoc, hsplit, hbuf]
          · cases h
            refine ⟨hnext, by rw [List.append_assoc, hsplit, hbuf], ?_⟩
            dsimp only at hagain ⊢
            rw [List.length_append] at hagain ⊢
            rcases Nat.lt_or_ge (r.buf.length + data.length) r.needed with hlt | hge
            · exact .inl hlt
            · have hneeded : r.needed = r.buf.length + data.length := by
                rw [hbuf] at hge hlength ⊢
                omega
              exact .inr ⟨(hknown fun hk => hagain ⟨hneeded.symm, hk⟩).append _ _, hneeded⟩

namespace SwitchboxAuth

/-- The bytes are a whole frame, or an acknowledgement, as `ioc_read_frame` finds it. -/
structure WholeFrame (frame : List UInt8) : Prop where
  begun : beginsAcknowledge frame = true ∨ (frame.getD 0 0).toNat = 0
  header : beginsAcknowledge frame = false →
    5 ≤ frame.length ∧ socketNeed frame ≤ maxAuthenticationFrameSz
  length : frame.length = socketNeed frame

def flagsOf (frame : List UInt8) : ℕ :=
  if beginsAcknowledge frame then 0 else (readHeader true frame).flags

def extraFlagsOf (frame : List UInt8) : ℕ :=
  if beginsAcknowledge frame then 0 else (readHeader true frame).extraFlags

def readFrame (sizes : MessageSizes) (behind : ℕ → UInt8) (frame : List UInt8) :
    Reading Unit (List UInt8 × ℕ × List UInt8) :=
  (readFrameContent sizes (flagsOf frame) (extraFlagsOf frame)).read
    (payloadMemory frame behind) (frameNumbersAt (extraFlagsOf frame)) ()

/-! ## What is accepted -/

section Accepted

variable {sizes : MessageSizes} {behind : ℕ → UInt8}

def startRead (received : List UInt8) : ReadFrameState :=
  ⟨true, maxAuthenticationFrameSz, 0, received, 0, 0, 0, 0, 0⟩

theorem startRead_sound {received : List UInt8}
    (hbegun : beginsAcknowledge received = true ∨ (received.getD 0 0).toNat = 0)
    (hwithin : received.length ≤ socketNeed received) : (startRead received).Sound :=
  ⟨rfl, rfl, rfl, hbegun, hwithin, fun _ => rfl⟩

theorem flags_of_known {rfs : ReadFrameState} (hsound : rfs.Sound) (hknown : rfs.Known) :
    rfs.flags = flagsOf rfs.buf ∧ rfs.extraFlags = extraFlagsOf rfs.buf := by
  unfold flagsOf extraFlagsOf
  cases hack : beginsAcknowledge rfs.buf with
  | true => exact ⟨hknown.acknowledge hack, hsound.extraFlags (.inl hack)⟩
  | false =>
      obtain ⟨-, hflags, hextra, -⟩ := hknown.frame hack
      exact ⟨hflags, hextra⟩

/-- A call either waits for more or has looked at a whole frame. -/
theorem processAuthenticationMessage_cases {received stream : List UInt8} {call : ReceiveCall}
    {status : AuthenticationStatus} {received' stream' : List UInt8}
    (hsound : (startRead received).Sound)
    (h : processAuthenticationMessage sizes behind received stream call =
      (status, received', stream')) :
    status = .failed ∨
    (status = .pending ∧ received' ++ stream' = received ++ stream ∧
      (startRead received').Sound) ∨
    (status = .completed ∧ received' ++ stream' = received ++ stream ∧ WholeFrame received' ∧
      (readFrame sizes behind received').value.isSome = true) := by
  unfold processAuthenticationMessage at h
  cases hread : readFrameLoop (startRead received) stream call.reads with
  | none =>
      rw [startRead] at hread
      rw [hread] at h
      cases h
      exact .inl rfl
  | some outcome =>
      obtain ⟨rfs, rest⟩ := outcome
      obtain ⟨hrfs, hbytes, hend⟩ := readFrameLoop_sound hsound hread
      rw [startRead] at hread
      rw [hread] at h
      dsimp only at h
      split_ifs at h with hmore helapsed hvalue
      · cases h
        exact .inl rfl
      · cases h
        exact .inr (.inl ⟨rfl, hbytes, startRead_sound hrfs.begun hrfs.within⟩)
      · cases h
        obtain ⟨hknown, hneeded⟩ := hend.resolve_left hmore
        obtain ⟨hflags, hextra⟩ := flags_of_known hrfs hknown
        refine .inr (.inr ⟨rfl, hbytes, ⟨hrfs.begun, fun hack => ?_, ?_⟩, ?_⟩)
        · exact ⟨(hknown.frame hack).1, (hknown.frame hack).2.2.2⟩
        · rw [← hknown.needed, hneeded]
        · rw [hflags, hextra] at hvalue
          exact hvalue
      · cases h
        exact .inl rfl

/-- A run which completes has taken one frame and accepted its content. -/
theorem processCalls_completed {calls : List ReceiveCall} {received stream : List UInt8}
    {received' stream' : List UInt8} (hsound : (startRead received).Sound)
    (h : processCalls sizes behind received stream calls = (.completed, received', stream')) :
    received' ++ stream' = received ++ stream ∧ WholeFrame received' ∧
      (readFrame sizes behind received').value.isSome = true := by
  induction calls generalizing received stream with
  | nil => cases h
  | cons call calls ih =>
      unfold processCalls at h
      generalize hcall : processAuthenticationMessage sizes behind received stream call = outcome
        at h
      obtain ⟨status, received₁, stream₁⟩ := outcome
      rcases processAuthenticationMessage_cases hsound hcall with rfl | ⟨rfl, hbytes, hnext⟩ |
        ⟨rfl, hbytes, hwhole⟩
      · cases h
      · obtain ⟨hbytes', hwhole⟩ := ih hnext h
        exact ⟨hbytes'.trans hbytes, hwhole⟩
      · cases h
        exact ⟨hbytes, hwhole⟩

theorem WholeFrame.lt_need {frame : List UInt8} (h : WholeFrame frame) {n : ℕ}
    (hn : n < frame.length) : n < socketNeed (frame.take n) := by
  have hlength : (frame.take n).length = n := by
    rw [List.length_take]
    omega
  have hframe : frame.take n ++ frame.drop n = frame := List.take_append_drop n frame
  rcases Nat.eq_zero_or_pos n with rfl | hpos
  · simp [socketNeed, beginsAcknowledge, acknowledgeByte]
  · have hack : beginsAcknowledge (frame.take n) = beginsAcknowledge frame := by
      conv_rhs => rw [← hframe]
      rw [beginsAcknowledge_append (by omega)]
    by_cases hknown : beginsAcknowledge (frame.take n) = false → 5 ≤ (frame.take n).length
    · have hneed := socketNeed_append_of_known hknown (frame.drop n)
      rw [hframe] at hneed
      rw [← hneed, ← h.length]
      exact hn
    · obtain ⟨hno, h5⟩ := Classical.not_imp.mp hknown
      unfold socketNeed
      rw [hno, hlength]
      rw [hlength] at h5
      simp only [Bool.false_eq_true, if_false, if_neg h5]
      split_ifs <;> omega

theorem WholeFrame.expect {frame : List UInt8} (h : WholeFrame frame) (rfs : ReadFrameState)
    (hsocket : rfs.isSocket = true) (hsize : rfs.frameSz = maxAuthenticationFrameSz) {n : ℕ}
    (hn : n ≤ frame.length) (hbuf : rfs.buf = frame.take n) : rfs.expect ≠ none := by
  have hlength : (frame.take n).length = n := by
    rw [List.length_take]
    omega
  have hframe : frame.take n ++ frame.drop n = frame := List.take_append_drop n frame
  unfold ReadFrameState.expect
  simp only [hsocket, headerFieldsEnd, if_true, hbuf, hlength, hsize]
  split_ifs with hack h5 hbig
  · simp
  · exfalso
    have hno : beginsAcknowledge frame = false := by
      rw [← hframe, beginsAcknowledge_append (by omega)]
      have hne : ((frame.take n).getD 0 0).toNat ≠ acknowledgeByte :=
        fun heq => hack ⟨heq, by omega⟩
      exact decide_eq_false hne
    obtain ⟨h5', hle⟩ := h.header hno
    have hneed : socketNeed frame = (readHeader true frame).needed true := by
      simp [socketNeed, hno, h5']
    have hhead : readHeader true frame = readHeader true (frame.take n) := by
      conv_lhs => rw [← hframe]
      rw [readHeader_append (by omega)]
    rw [hneed, hhead] at hle
    omega
  all_goals simp

theorem WholeFrame.sound {frame : List UInt8} (h : WholeFrame frame) {n : ℕ}
    (hn : n < frame.length) : (startRead (frame.take n)).Sound := by
  have hlength : (frame.take n).length = n := by
    rw [List.length_take]
    omega
  have hlt := h.lt_need hn
  refine startRead_sound ?_ (by omega)
  rcases Nat.eq_zero_or_pos n with rfl | hpos
  · exact .inr rfl
  · unfold beginsAcknowledge
    rw [take_head hpos]
    exact h.begun

theorem readFrameLoop_byte {frame : List UInt8} (h : WholeFrame frame) {n : ℕ}
    (hn : n < frame.length) (left : List UInt8) :
    ∃ rfs, readFrameLoop (startRead (frame.take n)) (frame.drop n ++ left) [1] =
        some (rfs, frame.drop (n + 1) ++ left) ∧ rfs.buf = frame.take (n + 1) := by
  have hlength : (frame.take n).length = n := by
    rw [List.length_take]
    omega
  have hsound := h.sound hn
  obtain ⟨r, hr⟩ := Option.ne_none_iff_exists'.mp
    (h.expect (startRead (frame.take n)) rfl rfl hn.le rfl)
  obtain ⟨hr', hbuf, hneed, -, -⟩ := hsound.expect hr
  have hbuf' : r.buf = frame.take n := hbuf
  have hlt : n < r.needed := by
    rw [hneed]
    exact h.lt_need hn
  have hdata : (frame.drop n ++ left).take (min 1 (r.needed - r.buf.length)) =
      [frame[n]] := by
    rw [hbuf', hlength, Nat.min_eq_left (by omega), List.drop_eq_getElem_cons hn]
    rfl
  have htake : frame.take n ++ [frame[n]] = frame.take (n + 1) := by
    rw [List.take_succ_eq_append_getElem hn]
  have hdrop : (frame.drop n ++ left).drop 1 = frame.drop (n + 1) ++ left := by
    rw [List.drop_eq_getElem_cons hn]
    rfl
  have hhead : (frame.take (n + 1)).getD 0 0 = frame.getD 0 0 := take_head (by omega)
  have haccepted : ¬ ([frame[n]] ≠ [] ∧
      ((frame.take (n + 1)).getD 0 0).toNat ≠ acknowledgeByte ∧
      ((frame.take (n + 1)).getD 0 0).toNat ≠ r.frameNr) := by
    rintro ⟨-, hack, hnr⟩
    rw [hhead] at hack hnr
    rw [hr'.frameNr] at hnr
    rcases h.begun with hbegun | hzero
    · exact hack (of_decide_eq_true hbegun)
    · exact hnr hzero
  unfold readFrameLoop
  rw [hr]
  dsimp only
  rw [hdata, hbuf', hlength, htake, if_neg (by omega), if_neg haccepted, List.length_singleton,
    hdrop]
  split_ifs with hagain
  · obtain ⟨last, hlast⟩ := Option.ne_none_iff_exists'.mp
      (h.expect
        { r with buf := frame.take (n + 1), bytesReceived := r.bytesReceived + 1 }
        hr'.isSocket hr'.frameSz hn rfl)
    have hlastBuf := ReadFrameState.expect_buf hlast
    refine ⟨last, ?_, hlastBuf⟩
    rw [readFrameLoop, hlast, Option.map_some]
  · exact ⟨_, rfl, rfl⟩

/-- With the whole frame in the buffer a call looks at its content. -/
theorem processAuthenticationMessage_whole {frame : List UInt8} (h : WholeFrame frame)
    (haccepted : (readFrame sizes behind frame).value.isSome = true) (left : List UInt8) :
    processAuthenticationMessage sizes behind frame left ⟨[], false⟩ =
      (.completed, frame, left) := by
  have hsound : (startRead frame).Sound := startRead_sound h.begun h.length.le
  have htake : frame = frame.take frame.length := (List.take_length).symm
  obtain ⟨r, hr⟩ := Option.ne_none_iff_exists'.mp
    (h.expect (startRead frame) rfl rfl (Nat.le_refl _) htake)
  obtain ⟨hr', hbuf, hneed, hknown, hunknown⟩ := hsound.expect hr
  have hbuf' : r.buf = frame := hbuf
  have hneed' : r.needed = frame.length := by
    rw [hneed, h.length]
    rfl
  have hknown' : r.Known := hknown fun hk => by
    have hlt := hunknown hk
    rw [hneed'] at hlt
    exact Nat.lt_irrefl _ hlt
  obtain ⟨hflags, hextra⟩ := flags_of_known hr' hknown'
  rw [hbuf'] at hflags hextra
  unfold processAuthenticationMessage
  rw [startRead] at hr
  simp only [readFrameLoop, hr, Option.map_some, hbuf', hneed', lt_irrefl, if_false, hflags,
    hextra]
  unfold readFrame at haccepted
  rw [if_pos haccepted]

/-- A whole frame whose content is accepted completes some run. -/
theorem processCalls_completes {frame : List UInt8} (h : WholeFrame frame)
    (haccepted : (readFrame sizes behind frame).value.isSome = true) (left : List UInt8)
    {n k : ℕ} (hn : n + k = frame.length) :
    ∃ calls, processCalls sizes behind (frame.take n) (frame.drop n ++ left) calls =
      (.completed, frame, left) := by
  induction k generalizing n with
  | zero =>
      have hlength : frame.length ≤ n := by omega
      refine ⟨[⟨[], false⟩], ?_⟩
      rw [List.take_of_length_le hlength, List.drop_eq_nil_of_le hlength, List.nil_append]
      simp only [processCalls, processAuthenticationMessage_whole h haccepted left]
  | succ k ih =>
      have hlt : n < frame.length := by omega
      obtain ⟨rfs, hread, hbuf⟩ := readFrameLoop_byte h hlt left
      obtain ⟨calls, hcalls⟩ := ih (n := n + 1) (by omega)
      obtain ⟨hrfs, -, hend⟩ := readFrameLoop_sound (h.sound hlt) hread
      rw [startRead] at hread
      by_cases hmore : rfs.buf.length < rfs.needed
      · refine ⟨⟨[1], false⟩ :: calls, ?_⟩
        have hcall : processAuthenticationMessage sizes behind (frame.take n)
            (frame.drop n ++ left) ⟨[1], false⟩ =
              (.pending, frame.take (n + 1), frame.drop (n + 1) ++ left) := by
          unfold processAuthenticationMessage
          rw [hread]
          dsimp only
          rw [if_pos hmore, hbuf]
          rfl
        simp only [processCalls, hcall, hcalls]
      · -- The frame is whole: no beginning of it is as long as it needs.
        obtain ⟨hknown, hneeded⟩ := hend.resolve_left hmore
        have hlast : n + 1 = frame.length := by
          by_contra hne
          have hless := h.lt_need (n := n + 1) (by omega)
          rw [← hbuf, ← hknown.needed, hneeded, hbuf, List.length_take] at hless
          omega
        have hall : rfs.buf = frame := by rw [hbuf, hlast, List.take_length]
        obtain ⟨hflags, hextra⟩ := flags_of_known hrfs hknown
        rw [hall] at hflags hextra
        refine ⟨[⟨[1], false⟩], ?_⟩
        have hcall : processAuthenticationMessage sizes behind (frame.take n)
            (frame.drop n ++ left) ⟨[1], false⟩ = (.completed, frame, left) := by
          unfold readFrame at haccepted
          unfold processAuthenticationMessage
          rw [hread]
          dsimp only
          rw [if_neg hmore, hall, hflags, hextra, if_pos haccepted, hlast, List.drop_length]
          rfl
        simp only [processCalls, hcall]

/-! ## Where the names are -/

def contentAt (frame : List UInt8) : ℕ :=
  frameNumbersAt (extraFlagsOf frame) +
    (extraBytes ((flagsOf frame).testBit 3) ((extraFlagsOf frame).testBit 1) + 1) +
    (extraBytes ((flagsOf frame).testBit 2) ((extraFlagsOf frame).testBit 0) + 1)

/-- Where the network name of a message at `pos` is. -/
def networkNameAt (sizes : MessageSizes) (mem : ℕ → UInt8) (pos : ℕ) : ℕ :=
  let authFlags := (mem (pos + 1)).toNat
  pos + 3 + (mem (pos + 2)).toNat + (extraBytes (authFlags.testBit 5) (authFlags.testBit 6) + 1) +
    if authFlags.testBit 1 then sizes.uniqueIdBin else 0

def NamesFit (sizes : MessageSizes) (mem : ℕ → UInt8) (pos : ℕ) : Prop :=
  (mem (pos + 2)).toNat < sizes.deviceId ∧
    (mem (networkNameAt sizes mem pos)).toNat < sizes.networkName

theorem bind_isSome {α β : Type} {r : MemoryReader Unit α} (f : α → MemoryReader Unit β)
    {mem : ℕ → UInt8} {pos next : ℕ} {a : α} (h : (r.read mem pos ()).value = some a)
    (hnext : (r.read mem pos ()).next = next) :
    ((r >>= f).read mem pos ()).value.isSome = ((f a).read mem next ()).value.isSome := by
  rw [bind_of_some f h, hnext]

theorem msgGetUint_read {σ : Type} (twoBytes fourBytes : Bool) (mem : ℕ → UInt8) (pos : ℕ)
    (s : σ) : ∃ x, ((msgGetUint twoBytes fourBytes : MemoryReader σ ℕ).read mem pos s).value =
      some x ∧
      ((msgGetUint twoBytes fourBytes : MemoryReader σ ℕ).read mem pos s).next =
        pos + (extraBytes twoBytes fourBytes + 1) := by
  cases twoBytes <;> cases fourBytes <;> exact ⟨_, rfl, rfl⟩

theorem optional_bytes_read {σ : Type} (present : Bool) (n : ℕ) (mem : ℕ → UInt8) (pos : ℕ)
    (s : σ) : ∃ xs,
      ((MemoryReader.optional present (.bytes n) [] : MemoryReader σ (List UInt8)).read
        mem pos s).value = some xs ∧
      ((MemoryReader.optional present (.bytes n) [] : MemoryReader σ (List UInt8)).read
        mem pos s).next = pos + if present then n else 0 := by
  cases present <;> exact ⟨_, rfl, rfl⟩

theorem msgGetstr_read_of_lt {σ : Type} {strSz : ℕ} {mem : ℕ → UInt8} {pos : ℕ}
    (h : (mem pos).toNat < strSz) (s : σ) :
    ∃ str, ((msgGetstr strSz : MemoryReader σ (List UInt8)).read mem pos s).value = some str ∧
      ((msgGetstr strSz : MemoryReader σ (List UInt8)).read mem pos s).next =
        pos + 1 + (mem pos).toNat := by
  have hbyte : ((byte : MemoryReader σ UInt8).read mem pos s).value = some (mem pos) := rfl
  unfold msgGetstr
  rw [bind_of_some _ hbyte]
  dsimp only
  rw [if_neg (by omega)]
  exact ⟨_, rfl, rfl⟩

theorem msgGetstr_read_of_le {σ : Type} {strSz : ℕ} {mem : ℕ → UInt8} {pos : ℕ}
    (h : strSz ≤ (mem pos).toNat) (s : σ) :
    ((msgGetstr strSz : MemoryReader σ (List UInt8)).read mem pos s).value = none := by
  have hbyte : ((byte : MemoryReader σ UInt8).read mem pos s).value = some (mem pos) := rfl
  unfold msgGetstr
  rw [bind_of_some _ hbyte]
  dsimp only
  rw [if_pos h]
  rfl

theorem parseAuthenticationMessage_isSome (mem : ℕ → UInt8) (pos : ℕ) :
    ((parseAuthenticationMessage sizes).read mem pos ()).value.isSome = true ↔
      NamesFit sizes mem pos := by
  have hbyte (pos : ℕ) : ((byte : MemoryReader Unit UInt8).read mem pos ()).value =
      some (mem pos) := rfl
  have hnextByte (pos : ℕ) : ((byte : MemoryReader Unit UInt8).read mem pos ()).next =
      pos + 1 := rfl
  unfold parseAuthenticationMessage NamesFit
  rw [bind_isSome _ (hbyte pos) (hnextByte pos),
    bind_isSome _ (hbyte (pos + 1)) (hnextByte (pos + 1))]
  rcases Nat.lt_or_ge (mem (pos + 2)).toNat sizes.deviceId with huser | huser
  · obtain ⟨userName, hname, hnext⟩ := msgGetstr_read_of_lt huser ()
    obtain ⟨deviceNr, hnr, hnrNext⟩ := msgGetUint_read
      ((mem (pos + 1)).toNat.testBit 5) ((mem (pos + 1)).toNat.testBit 6) mem
      (pos + 2 + 1 + (mem (pos + 2)).toNat) ()
    obtain ⟨uniqueId, hid, hidNext⟩ := optional_bytes_read
      ((mem (pos + 1)).toNat.testBit 1) sizes.uniqueIdBin mem
      (pos + 2 + 1 + (mem (pos + 2)).toNat +
        (extraBytes ((mem (pos + 1)).toNat.testBit 5) ((mem (pos + 1)).toNat.testBit 6) + 1)) ()
    change _ = networkNameAt sizes mem pos at hidNext
    rw [bind_isSome _ hname hnext, bind_isSome _ hnr hnrNext, bind_isSome _ hid hidNext]
    rcases Nat.lt_or_ge (mem (networkNameAt sizes mem pos)).toNat sizes.networkName
      with hnetwork | hnetwork
    · obtain ⟨networkName, hvalue, hlast⟩ := msgGetstr_read_of_lt hnetwork ()
      rw [bind_isSome _ hvalue hlast]
      exact iff_of_true rfl ⟨huser, hnetwork⟩
    · rw [bind_of_none _ (msgGetstr_read_of_le hnetwork ())]
      simp only [Option.isSome_none, Bool.false_eq_true, false_iff, not_and]
      omega
  · rw [bind_of_none _ (msgGetstr_read_of_le huser ())]
    simp only [Option.isSome_none, Bool.false_eq_true, false_iff, not_and]
    omega

theorem readFrame_isSome (sizes : MessageSizes) (behind : ℕ → UInt8) (frame : List UInt8) :
    (readFrame sizes behind frame).value.isSome = true ↔
      NamesFit sizes (payloadMemory frame behind) (contentAt frame) := by
  obtain ⟨mblkId, hmblk, hmblkNext⟩ := msgGetUint_read ((flagsOf frame).testBit 3)
    ((extraFlagsOf frame).testBit 1) (payloadMemory frame behind)
    (frameNumbersAt (extraFlagsOf frame)) ()
  obtain ⟨addr, haddr, haddrNext⟩ := msgGetUint_read ((flagsOf frame).testBit 2)
    ((extraFlagsOf frame).testBit 0) (payloadMemory frame behind)
    (frameNumbersAt (extraFlagsOf frame) +
      (extraBytes ((flagsOf frame).testBit 3) ((extraFlagsOf frame).testBit 1) + 1)) ()
  unfold readFrame readFrameContent
  rw [bind_isSome _ hmblk hmblkNext, bind_isSome _ haddr haddrNext]
  exact parseAuthenticationMessage_isSome _ _

end Accepted

def messageLayout (sizes : MessageSizes) : MessageLayout :=
  .byte fun _ => .byte fun authFlags =>
    (stringLayout sizes.deviceId).append <|
    (numberLayout (authFlags.toNat.testBit 5) (authFlags.toNat.testBit 6)).append <|
    (if authFlags.toNat.testBit 1 then MessageLayout.bytes sizes.uniqueIdBin .done
    else .done).append <|
    stringLayout sizes.networkName

def contentLayout (sizes : MessageSizes) (flags extraFlags : ℕ) : MessageLayout :=
  (numberLayout (flags.testBit 3) (extraFlags.testBit 1)).append <|
  (numberLayout (flags.testBit 2) (extraFlags.testBit 0)).append <|
  messageLayout sizes

theorem readFrameContent_boundedBy (sizes : MessageSizes) (flags extraFlags : ℕ) :
    (readFrameContent sizes flags extraFlags).BoundedBy (contentLayout sizes flags extraFlags) := by
  refine ((msgGetUint_follows _ _).bind fun mblkId => ?_).boundedBy
  refine (msgGetUint_follows _ _).bind fun addr => ?_
  refine follows_byte_bind fun type => follows_byte_bind fun authFlags => ?_
  refine (msgGetstr_follows _).bind fun userName => ?_
  refine (msgGetUint_follows _ _).bind fun deviceNr => ?_
  refine ((follows_bytes _).optional _ _).bind fun uniqueId => ?_
  exact (msgGetstr_follows _).bind_done fun networkName => follows_pure _

/-! ## The exchange -/

/-- The bytes on the stream are the first ones of the frame, each once and in order, and
all of them when the message has been sent. -/
def SentInOrder (prm : AuthenticationParameters) (uniqueId : Option (List UInt8))
    (calls : List SendCall) : Prop :=
  ∃ status sent, sendCalls prm uniqueId ⟨[], 0, 0⟩ calls = some (status, sent) ∧
    sent = ((authenticationMessage prm uniqueId).encode (fun _ => 0) true).take sent.length ∧
    (status = .completed → sent = (authenticationMessage prm uniqueId).encode (fun _ => 0) true)

structure Authenticates (sizes : MessageSizes) (behind : ℕ → UInt8) (frame : List UInt8) :
    Prop where
  notAcknowledge : beginsAcknowledge frame = false
  system : (readHeader true frame).flags.testBit 5 = true
  type : payloadMemory frame behind (contentAt frame) = 2
  inside : ∀ i ∈ (readFrame sizes behind frame).reads, i < frame.length

structure HoldsAuthentication (sizes : MessageSizes) (behind : ℕ → UInt8) (frame : List UInt8) :
    Prop where
  notAcknowledge : beginsAcknowledge frame = false
  system : (readHeader true frame).flags.testBit 5 = true
  type : payloadMemory frame behind (contentAt frame) = 2
  fits : (contentLayout sizes (flagsOf frame) (extraFlagsOf frame)).fit
    (frame.drop (frameNumbersAt (extraFlagsOf frame))) = true

theorem sentInOrder_iff (prm : AuthenticationParameters) (uniqueId : Option (List UInt8))
    (calls : List SendCall) :
    SentInOrder prm uniqueId calls ↔
      calls = [] ∨
        12 + prm.userName.length + (uniqueId.getD []).length + prm.networkName.length ≤
            maxAuthenticationFrameSz ∧
          SendsDue ((authenticationMessage prm uniqueId).encode (fun _ => 0) true) 0 calls := by
  have hlength := authenticationFrame_length prm uniqueId
  unfold SentInOrder
  rw [← authenticationFrame_eq_encode]
  generalize hframe : authenticationFrame prm uniqueId = frame at hlength ⊢
  rw [← hlength]
  cases calls with
  | nil => exact iff_of_true ⟨.pending, [], rfl, rfl, fun h => by cases h⟩ (.inl rfl)
  | cons call calls =>
      have hpos : 0 < frame.length := by omega
      obtain ⟨status, sent, hsent, hcompleted, hdue⟩ :=
        sendCalls_in_order prm uniqueId hpos (call :: calls)
      by_cases hfits : frame.length ≤ maxAuthenticationFrameSz
      · have hstart : sendCalls prm uniqueId ⟨[], 0, 0⟩ (call :: calls) =
            sendCalls prm uniqueId ⟨frame, frame.length, 0⟩ (call :: calls) := by
          have hmake : makeAuthenticationMessage prm uniqueId = some ⟨frame, frame.length, 0⟩ := by
            unfold makeAuthenticationMessage
            rw [hframe]
            exact if_pos hfits
          have hused : frame.length ≠ 0 := by omega
          have hfirst : sendAuthenticationMessage prm uniqueId ⟨[], 0, 0⟩ call =
              sendAuthenticationMessage prm uniqueId ⟨frame, frame.length, 0⟩ call := by
            simp [sendAuthenticationMessage, hmake, hused]
          simp only [sendCalls, hfirst]
        rw [hstart, hsent]
        simp only [Option.some.injEq, Prod.mk.injEq, reduceCtorEq, false_or, hfits, true_and]
        rw [← hdue, List.drop_zero]
        constructor
        · rintro ⟨_, _, ⟨rfl, rfl⟩, hhead, -⟩
          exact hhead
        · intro hhead
          refine ⟨status, sent, ⟨rfl, rfl⟩, hhead, fun h => ?_⟩
          have hall := hcompleted h
          rw [Nat.zero_add] at hall
          rw [hhead, hall, List.take_length]
      · have hmake : makeAuthenticationMessage prm uniqueId = none := by
          unfold makeAuthenticationMessage
          rw [hframe]
          exact if_neg hfits
        have hnone : sendCalls prm uniqueId ⟨[], 0, 0⟩ (call :: calls) = none := by
          simp [sendCalls, sendAuthenticationMessage, hmake]
        rw [hnone]
        simp [hfits]

theorem WholeFrame.authenticates_iff {sizes : MessageSizes} {behind : ℕ → UInt8}
    {frame : List UInt8} (h : WholeFrame frame) :
    Authenticates sizes behind frame ↔ HoldsAuthentication sizes behind frame := by
  have hinside (hno : beginsAcknowledge frame = false) :
      (contentLayout sizes (flagsOf frame) (extraFlagsOf frame)).fit
          (frame.drop (frameNumbersAt (extraFlagsOf frame))) = true ↔
        ∀ i ∈ (readFrame sizes behind frame).reads, i < frame.length := by
    have h5 := (h.header hno).1
    have hat : frameNumbersAt (extraFlagsOf frame) ≤ frame.length := by
      unfold frameNumbersAt
      split_ifs <;> omega
    exact readFrameContent_boundedBy sizes (flagsOf frame) (extraFlagsOf frame)
      (payloadMemory_holds frame behind) hat
  constructor
  · rintro ⟨hno, hsystem, htype, hreads⟩
    exact ⟨hno, hsystem, htype, (hinside hno).mpr hreads⟩
  · rintro ⟨hno, hsystem, htype, hfits⟩
    exact ⟨hno, hsystem, htype, (hinside hno).mp hfits⟩

/-- Whatever the writes and the reads split: what is sent is the frame exactly if what the
stream accepts is due, and what is accepted is an authentication message exactly if the
bytes begin with no other frame whose names fit. -/
theorem switchbox_authentication_exchange (prm : AuthenticationParameters)
    (uniqueId : Option (List UInt8)) (calls : List SendCall) (sizes : MessageSizes)
    (behind : ℕ → UInt8) (bytes : List UInt8) :
    (SentInOrder prm uniqueId calls ↔
      calls = [] ∨
        12 + prm.userName.length + (uniqueId.getD []).length + prm.networkName.length ≤
            maxAuthenticationFrameSz ∧
          SendsDue ((authenticationMessage prm uniqueId).encode (fun _ => 0) true) 0 calls) ∧
    ((∀ receiveCalls received left,
        processCalls sizes behind [] bytes receiveCalls = (.completed, received, left) →
          received ++ left = bytes ∧ WholeFrame received ∧
            Authenticates sizes behind received) ↔
      ∀ frame left, frame ++ left = bytes → WholeFrame frame →
        NamesFit sizes (payloadMemory frame behind) (contentAt frame) →
          HoldsAuthentication sizes behind frame) := by
  refine ⟨sentInOrder_iff prm uniqueId calls, ?_, ?_⟩
  · intro hall frame left hbytes hwhole hnames
    obtain ⟨receiveCalls, hrun⟩ := processCalls_completes (n := 0) (k := frame.length) hwhole
      ((readFrame_isSome sizes behind frame).mpr hnames) left (Nat.zero_add _)
    rw [List.take_zero, List.drop_zero, hbytes] at hrun
    obtain ⟨-, -, hauth⟩ := hall receiveCalls frame left hrun
    exact hwhole.authenticates_iff.mp hauth
  · intro hall receiveCalls received left hrun
    have hsound : (startRead []).Sound := startRead_sound (.inr rfl) (by decide)
    obtain ⟨hbytes, hwhole, hvalue⟩ := processCalls_completed hsound hrun
    have hnames := (readFrame_isSome sizes behind received).mp hvalue
    exact ⟨hbytes, hwhole, hwhole.authenticates_iff.mpr (hall received left hbytes hwhole hnames)⟩

/-- The stream accepts one byte and then the rest, and an acknowledgement is received. -/
theorem exchange_goes_wrong :
    ¬ SentInOrder ⟨[117], [110]⟩ none [⟨some 1, false⟩, ⟨some 100, false⟩] ∧
    ∃ receiveCalls received left,
      processCalls ⟨16, 24, 64, 8⟩ (fun _ => 0) [] [255, 1, 0, 0] receiveCalls =
        (.completed, received, left) ∧
      ¬ Authenticates ⟨16, 24, 64, 8⟩ (fun _ => 0) received := by
  refine ⟨?_, [⟨[4], false⟩], [255, 1, 0, 0], [], rfl, fun h => ?_⟩
  · rw [sentInOrder_iff]
    simp only [reduceCtorEq, false_or, not_and]
    intro _ hdue
    obtain ⟨-, hrest⟩ := hdue
    obtain ⟨hsecond, -⟩ := hrest rfl (by decide)
    exact absurd hsecond (by decide)
  · exact absurd h.notAcknowledge (by decide)

end SwitchboxAuth

end Iocom
