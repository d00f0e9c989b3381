import Iocom.ReadFrame
import Mathlib.Data.Nat.ModEq

/-!
# Reassembly of frames

However a stream of messages is handed out, repeated calls of
`ioc_connection_receive` take exactly the messages out of it.  Between two calls
the buffer holds a proper prefix of the next message; the invariant of the
reading loop is that it holds a prefix of it in every stage.
-/

namespace Iocom

variable {checksum : List UInt8 → ℕ}

def maxFrameSzOf (isSocket : Bool) : ℤ :=
  if isSocket then maxFrameSz else serialFrameSz

def Message.WellFormed (isSocket : Bool) (frameSz : ℤ) : Message → Prop
  | .acknowledge rbytes => rbytes < ackModulusOf isSocket
  | .frame sent =>
      sent.frameNr ≤ maxFrameNr ∧ sent.mblkId < 0x100000000 ∧
        sent.addr < 0x100000000 ∧
        ((headerSize isSocket sent.mblkId sent.addr + sent.payload.length : ℕ) : ℤ) ≤
          frameSz

def Numbered : ℕ → List Message → Prop
  | _, [] => True
  | nr, .acknowledge _ :: messages => Numbered nr messages
  | nr, .frame sent :: messages =>
      sent.frameNr = nr ∧ Numbered (nextFrameNr nr) messages

theorem Frame.encode_length (isSocket : Bool) (frame : Frame) :
    (frame.encode checksum isSocket).length =
      headerSize isSocket frame.mblkId frame.addr + frame.payload.length :=
  frame.encodeWith_length _ _

theorem acknowledgeBytes_length (isSocket : Bool) (rbytes : ℕ) :
    (acknowledgeBytes isSocket rbytes).length = ackSizeOf isSocket := by
  cases isSocket <;> rfl

def Message.headByte : Message → ℕ
  | .acknowledge _ => acknowledgeByte
  | .frame sent => sent.frameNr

theorem Frame.encode_head (isSocket : Bool) (frame : Frame) :
    ((frame.encode checksum isSocket).getD 0 0).toNat = frame.frameNr % 0x100 := by
  unfold Frame.encode Frame.encodeWith
  cases isSocket <;> simp

theorem Message.WellFormed.frameWellFormed
    {isSocket : Bool} {frameSz : ℤ} {sent : Frame}
    (h : (Message.frame sent).WellFormed isSocket frameSz)
    (hsize : frameSz ≤ maxFrameSzOf isSocket) : sent.WellFormed isSocket := by
  obtain ⟨hnr, hmblk, haddr, hfits⟩ := h
  refine ⟨hnr, hmblk, haddr, ?_⟩
  unfold maxFrameSzOf maxFrameSz serialFrameSz at hsize
  cases isSocket with
  | true =>
      simp only [if_true] at hsize ⊢
      omega
  | false =>
      simp only [Bool.false_eq_true, if_false] at hsize ⊢
      omega

theorem Message.WellFormed.frameNr_ne
    {isSocket : Bool} {frameSz : ℤ} {sent : Frame}
    (h : (Message.frame sent).WellFormed isSocket frameSz) :
    sent.frameNr ≠ acknowledgeByte := by
  have := h.1
  unfold maxFrameNr at this
  unfold acknowledgeByte
  omega

theorem Message.encode_pos (isSocket : Bool) (message : Message) :
    ackSizeOf isSocket ≤ (message.encode checksum isSocket).length := by
  cases message with
  | acknowledge rbytes => exact (acknowledgeBytes_length isSocket rbytes).ge
  | frame sent =>
      have := headerFieldsEnd_le isSocket
        (if isSocket then 0 else
          checksum (sent.encodeWith isSocket 0) % 0x10000) sent
      unfold Message.encode Frame.encode
      refine le_trans ?_ this
      cases isSocket <;> decide

/-! ## One call -/

/-- The reader holds the first `n` bytes of a message. -/
structure ReadFrameState.Reading
    (checksum : List UInt8 → ℕ) (rfs : ReadFrameState) (message : Message)
    (n : ℕ) : Prop where
  buf : rfs.buf = (message.encode checksum rfs.isSocket).take n
  le : n ≤ (message.encode checksum rfs.isSocket).length
  wellFormed : message.WellFormed rfs.isSocket rfs.frameSz
  frameSz : rfs.frameSz ≤ maxFrameSzOf rfs.isSocket
  frameNr : ∀ sent, message = .frame sent → sent.frameNr = rfs.frameNr

def ReadFrameState.Fields (rfs : ReadFrameState) : Message → Prop
  | .acknowledge _ => True
  | .frame sent =>
      rfs.flags = sent.flagsByte ∧ rfs.extraFlags = sent.extraFlags ∧
        rfs.dataSz = sent.payload.length

/-- What the reader asks for next: never more than the rest of the message, and
its whole rest once the data size is known. -/
structure ReadFrameState.Expects
    (checksum : List UInt8 → ℕ) (rfs rfs' : ReadFrameState) (message : Message)
    (n : ℕ) : Prop where
  same : rfs' =
    { rfs with
      needed := rfs'.needed
      dataSz := rfs'.dataSz
      flags := rfs'.flags
      extraFlags := rfs'.extraFlags }
  more : n < (message.encode checksum rfs.isSocket).length → n < rfs'.needed
  bound : rfs'.needed ≤ (message.encode checksum rfs.isSocket).length
  known : rfs'.dataSz ≠ 0xFFFF →
    rfs'.needed = (message.encode checksum rfs.isSocket).length ∧
      rfs'.Fields message
  complete : n = (message.encode checksum rfs.isSocket).length →
    rfs'.dataSz ≠ 0xFFFF

theorem take_head {bytes : List UInt8} {n : ℕ} (hn : 1 ≤ n) :
    (bytes.take n).getD 0 0 = bytes.getD 0 0 := by
  rw [List.getD_eq_getElem?_getD, List.getElem?_take_of_lt (by omega),
    ← List.getD_eq_getElem?_getD]

theorem ReadFrameState.Reading.length
    {rfs : ReadFrameState} {message : Message} {n : ℕ}
    (h : rfs.Reading checksum message n) : rfs.buf.length = n := by
  rw [h.buf, List.length_take]
  exact Nat.min_eq_left h.le

theorem ReadFrameState.Reading.head
    {rfs : ReadFrameState} {message : Message} {n : ℕ}
    (h : rfs.Reading checksum message n) (hn : 1 ≤ n) :
    (rfs.buf.getD 0 0).toNat = message.headByte := by
  rw [h.buf, take_head hn]
  have hwf := h.wellFormed
  cases message with
  | acknowledge rbytes => rfl
  | frame sent =>
      dsimp only [Message.encode, Message.headByte]
      rw [Frame.encode_head]
      have := hwf.1
      unfold maxFrameNr at this
      omega

theorem ReadFrameState.Reading.expects
    {rfs : ReadFrameState} {message : Message} {n : ℕ}
    (h : rfs.Reading checksum message n) :
    ∃ rfs', rfs.expect = some rfs' ∧ rfs.Expects checksum rfs' message n := by
  have hlength := h.length
  have hack : ackSizeOf rfs.isSocket ≤
      (message.encode checksum rfs.isSocket).length := message.encode_pos _
  have hpos : 1 ≤ ackSizeOf rfs.isSocket := by
    cases rfs.isSocket <;> decide
  unfold ReadFrameState.expect
  rw [hlength]
  by_cases hzero : n = 0
  · -- Nothing has been read: the size of an acknowledgement is asked for.
    have hend : 1 ≤ headerFieldsEnd rfs.isSocket := by
      cases rfs.isSocket <;> decide
    rw [if_neg (by omega), if_neg (by omega), if_neg (by omega)]
    exact ⟨_, rfl,
      { same := rfl
        more := fun _ => by dsimp only; omega
        bound := hack
        known := fun hne => absurd rfl hne
        complete := fun hn => by omega }⟩
  have hhead := h.head (by omega)
  have hwf := h.wellFormed
  cases message with
  | acknowledge rbytes =>
      rw [if_pos ⟨hhead, by omega⟩]
      have hsize : (Message.encode checksum rfs.isSocket
          (.acknowledge rbytes)).length = ackSizeOf rfs.isSocket :=
        acknowledgeBytes_length _ _
      exact ⟨_, rfl,
        { same := rfl
          more := fun hn => by rw [hsize] at hn; exact hn
          bound := hack
          known := fun _ => ⟨hsize.symm, trivial⟩
          complete := fun _ => by dsimp only; decide }⟩
  | frame sent =>
      have hnr : (rfs.buf.getD 0 0).toNat ≠ acknowledgeByte := by
        rw [hhead]
        exact hwf.frameNr_ne
      have hframe := hwf.frameWellFormed h.frameSz
      have hsize : sent.payload.length <
          if rfs.isSocket then 0x10000 else 0x100 :=
        lt_of_lt_of_le hframe.dataSz (by split <;> decide)
      rw [if_neg fun hack => hnr hack.1]
      by_cases hknown : headerFieldsEnd rfs.isSocket ≤ n
      · rw [if_pos hknown]
        have hneeded : (readHeader rfs.isSocket rfs.buf).needed rfs.isSocket =
            (Message.encode checksum rfs.isSocket (.frame sent)).length := by
          rw [h.buf]
          exact needed_encodeWith hknown hsize
        obtain ⟨hflags, hextra, hdata⟩ :=
          readHeader_encodeWith sent (if rfs.isSocket then 0 else
            checksum (sent.encodeWith rfs.isSocket 0) % 0x10000) hknown
        have hbuf : rfs.buf = (sent.encodeWith rfs.isSocket
            (if rfs.isSocket then 0 else
              checksum (sent.encodeWith rfs.isSocket 0) % 0x10000)).take n := h.buf
        rw [← hbuf] at hflags hextra hdata
        have hfits : ¬rfs.frameSz <
            (readHeader rfs.isSocket rfs.buf).needed rfs.isSocket := by
          rw [hneeded, Message.encode, Frame.encode_length]
          exact not_lt.mpr hwf.2.2.2
        dsimp only
        rw [if_neg hfits]
        refine ⟨_, rfl,
          { same := rfl
            more := fun hn => by
              dsimp only
              rw [hneeded]
              exact hn
            bound := hneeded.le
            known := fun _ => ⟨hneeded, hflags, hextra, hdata hsize⟩
            complete := fun _ => ?_ }⟩
        dsimp only
        rw [hdata hsize]
        have hlimit := hframe.dataSz
        split at hlimit <;> omega
      · rw [if_neg hknown, if_pos (by omega)]
        have hlong : headerFieldsEnd rfs.isSocket + 1 ≤
            (Message.encode checksum rfs.isSocket (.frame sent)).length := by
          unfold Message.encode
          rw [Frame.encode_length]
          unfold headerFieldsEnd headerSize
          have := uintSize_eq sent.mblkId
          have := uintSize_eq sent.addr
          split <;> simp_all <;> omega
        exact ⟨_, rfl,
          { same := rfl
            more := fun _ => by dsimp only; omega
            bound := hlong
            known := fun hne => absurd rfl hne
            complete := fun hn => by omega }⟩

/-- The reading loop leaves a longer prefix of the message, and has found its
fields when the prefix is the whole message. -/
theorem readFrameLoop_spec
    {rfs : ReadFrameState} {message : Message} {n : ℕ} (tail : List UInt8)
    (reads : List ℕ) (h : rfs.Reading checksum message n) :
    ∃ rfs' n', readFrameLoop rfs
        ((message.encode checksum rfs.isSocket).drop n ++ tail) reads =
          some (rfs', (message.encode checksum rfs.isSocket).drop n' ++ tail) ∧
      n ≤ n' ∧ n' ≤ (message.encode checksum rfs.isSocket).length ∧
      rfs'.buf = (message.encode checksum rfs.isSocket).take n' ∧
      rfs'.bytesReceived = rfs.bytesReceived + (n' - n) ∧
      (n' < (message.encode checksum rfs.isSocket).length → n' < rfs'.needed) ∧
      (n' = (message.encode checksum rfs.isSocket).length →
        rfs'.needed = n' ∧ rfs'.Fields message) ∧
      (n < (message.encode checksum rfs.isSocket).length →
        0 < reads.headD 0 → n < n') := by
  induction reads generalizing rfs n with
  | nil =>
      obtain ⟨rfs', hexpect, he⟩ := h.expects
      refine ⟨rfs', n, ?_, le_rfl, h.le, ?_, ?_, he.more, fun hn => ?_,
        fun _ hgiven => absurd hgiven (lt_irrefl 0)⟩
      · simp only [readFrameLoop, hexpect, Option.map_some]
      · rw [he.same]
        exact h.buf
      · rw [he.same]
        dsimp only
        omega
      · obtain ⟨hneeded, hfields⟩ := he.known (he.complete hn)
        exact ⟨hneeded.trans hn.symm, hfields⟩
  | cons given reads ih =>
      obtain ⟨rfs', hexpect, he⟩ := h.expects
      have hlength := h.length
      have hbuf : rfs'.buf = rfs.buf := by rw [he.same]
      have hreceived : rfs'.bytesReceived = rfs.bytesReceived := by rw [he.same]
      have hsocket : rfs'.isSocket = rfs.isSocket := by rw [he.same]
      have hsz : rfs'.frameSz = rfs.frameSz := by rw [he.same]
      have hframeNr : rfs'.frameNr = rfs.frameNr := by rw [he.same]
      simp only [readFrameLoop, hexpect]
      by_cases hdone : rfs'.needed = rfs'.buf.length
      · -- The message is complete already.
        rw [if_pos hdone]
        rw [hbuf, hlength] at hdone
        have hn : n = (message.encode checksum rfs.isSocket).length := by
          by_contra hne
          have hle := h.le
          have := he.more (by omega)
          omega
        refine ⟨rfs', n, rfl, le_rfl, h.le, ?_, ?_, he.more, fun hn => ?_,
          fun hlt => absurd hlt (by omega)⟩
        · rw [hbuf]
          exact h.buf
        · omega
        · exact ⟨hdone, (he.known (he.complete hn)).2⟩
      rw [if_neg hdone]
      rw [hbuf, hlength] at hdone ⊢
      generalize hcount : min given (rfs'.needed - n) = count
      have hcount_le : n + count ≤ rfs'.needed := by
        have hle := h.le
        have hmore := he.more
        by_cases hlt : n < (message.encode checksum rfs.isSocket).length
        · have := hmore hlt
          omega
        · have hn : n = (message.encode checksum rfs.isSocket).length := by omega
          have := (he.known (he.complete hn)).1
          omega
      have hbound := he.bound
      have hsome : n < (message.encode checksum rfs.isSocket).length →
          0 < given → n < n + count := by
        intro hlt hgiven
        have := he.more hlt
        omega
      have hdata : ((message.encode checksum rfs.isSocket).drop n ++ tail).take
          count = ((message.encode checksum rfs.isSocket).drop n).take count := by
        rw [List.take_append_of_le_length]
        rw [List.length_drop]
        omega
      have hdatalen : (((message.encode checksum rfs.isSocket).drop n).take
          count).length = count := by
        rw [List.length_take, List.length_drop]
        omega
      have hnewbuf : rfs.buf ++
          ((message.encode checksum rfs.isSocket).drop n).take count =
          (message.encode checksum rfs.isSocket).take (n + count) := by
        rw [h.buf, List.take_add]
      have hrest : ((message.encode checksum rfs.isSocket).drop n ++ tail).drop
          count = (message.encode checksum rfs.isSocket).drop (n + count) ++ tail := by
        rw [List.drop_append_of_le_length (by rw [List.length_drop]; omega),
          List.drop_drop]
      rw [hdata, hdatalen, hnewbuf, hrest, hreceived]
      have hreading : ReadFrameState.Reading checksum
          { rfs' with
            buf := (message.encode checksum rfs.isSocket).take (n + count)
            bytesReceived := rfs.bytesReceived + count } message (n + count) :=
        { buf := by dsimp only; rw [hsocket]
          le := by dsimp only; rw [hsocket]; omega
          wellFormed := by
            dsimp only
            rw [hsocket, hsz]
            exact h.wellFormed
          frameSz := by
            dsimp only
            rw [hsocket, hsz]
            exact h.frameSz
          frameNr := fun sent hsent => by
            dsimp only
            rw [hframeNr]
            exact h.frameNr sent hsent }
      have hnumber : ¬(((message.encode checksum rfs.isSocket).drop n).take count ≠
            [] ∧
          (((message.encode checksum rfs.isSocket).take (n + count)).getD 0
            0).toNat ≠ acknowledgeByte ∧
          (((message.encode checksum rfs.isSocket).take (n + count)).getD 0
            0).toNat ≠ rfs'.frameNr) := by
        rintro ⟨hsome, hack, hnr⟩
        have hpos : 0 < count := by
          rw [← hdatalen]
          exact List.length_pos_iff.mpr hsome
        have hhead := hreading.head (by omega)
        dsimp only at hhead
        cases message with
        | acknowledge rbytes => exact hack hhead
        | frame sent =>
            apply hnr
            rw [hhead, hframeNr]
            exact h.frameNr sent rfl
      rw [if_neg hnumber]
      have htaken : ((message.encode checksum rfs.isSocket).take
          (n + count)).length = n + count := by
        rw [List.length_take]
        omega
      rw [htaken]
      by_cases hloop : n + count = rfs'.needed ∧ rfs'.dataSz = 0xFFFF
      · rw [if_pos hloop]
        obtain ⟨rfs'', n', hrun, h1, h2, h3, h4, h5, h6, -⟩ := ih hreading
        dsimp only at hrun h2 h3 h4 h5 h6
        rw [hsocket] at hrun h2 h3 h5 h6 ⊢
        exact ⟨rfs'', n', hrun, by omega, h2, h3, by omega, h5, h6,
          fun hlt hgiven => lt_of_lt_of_le (hsome hlt hgiven) h1⟩
      · rw [if_neg hloop]
        refine ⟨_, n + count, rfl, by omega, by omega, rfl, ?_, fun hlt => ?_,
          fun hn => ?_, hsome⟩
        · dsimp only
          omega
        · dsimp only
          by_contra hge
          have heq : n + count = rfs'.needed := by omega
          have hknown : rfs'.dataSz ≠ 0xFFFF := fun hsz => hloop ⟨heq, hsz⟩
          have := (he.known hknown).1
          omega
        · have heq : n + count = rfs'.needed := by omega
          have hknown : rfs'.dataSz ≠ 0xFFFF := fun hsz => hloop ⟨heq, hsz⟩
          obtain ⟨-, hfields⟩ := he.known hknown
          refine ⟨heq.symm, ?_⟩
          cases message with
          | acknowledge rbytes => trivial
          | frame sent => exact hfields

/-! ## The handling of a complete message -/

theorem acknowledgedBytes_acknowledgeBytes
    {isSocket : Bool} {rbytes : ℕ} (h : rbytes < ackModulusOf isSocket) :
    acknowledgedBytes isSocket (acknowledgeBytes isSocket rbytes) = rbytes := by
  unfold ackModulusOf at h
  unfold acknowledgedBytes acknowledgeBytes
  cases isSocket with
  | true =>
      simp only [if_true, List.getD_cons_zero, List.getD_cons_succ,
        uInt8_toNat_ofNat] at h ⊢
      omega
  | false =>
      simp only [Bool.false_eq_true, if_false, List.getD_cons_zero,
        List.getD_cons_succ, uInt8_toNat_ofNat] at h ⊢
      omega

theorem clearChecksum_encodeWith (frame : Frame) (crc : ℕ) :
    clearChecksum (frame.encodeWith false crc) = frame.encodeWith false 0 := by
  unfold Frame.encodeWith clearChecksum
  simp

theorem encodeWith_checksum (frame : Frame) {crc : ℕ} (hcrc : crc < 0x10000) :
    ((frame.encodeWith false crc).getD 1 0).toNat +
      0x100 * ((frame.encodeWith false crc).getD 2 0).toNat = crc := by
  have h1 : (frame.encodeWith false crc).getD 1 0 = UInt8.ofNat crc := by
    simp [Frame.encodeWith]
  have h2 : (frame.encodeWith false crc).getD 2 0 = UInt8.ofNat (crc / 0x100) := by
    simp [Frame.encodeWith]
  rw [h1, h2, uInt8_toNat_ofNat, uInt8_toNat_ofNat]
  omega

def Message.nextNr (nr : ℕ) : Message → ℕ
  | .acknowledge _ => nr
  | .frame sent => nextFrameNr sent.frameNr

theorem Numbered.head
    {nr : ℕ} {message : Message} {messages : List Message}
    (h : Numbered nr (message :: messages)) :
    ∀ sent, message = .frame sent → sent.frameNr = nr := by
  rintro sent rfl
  exact h.1

theorem Numbered.rest
    {nr : ℕ} {message : Message} {messages : List Message}
    (h : Numbered nr (message :: messages)) :
    Numbered (message.nextNr nr) messages := by
  cases message with
  | acknowledge rbytes => exact h
  | frame sent =>
      obtain ⟨rfl, hrest⟩ := h
      exact hrest

/-- The fields found while reading are enough to decode the frame. -/
theorem decodeFrame_of_fields
    {isSocket : Bool} {rfs : ReadFrameState} {sent : Frame} (crc : ℕ)
    (hwf : sent.WellFormed isSocket) (h : rfs.Fields (.frame sent)) :
    decodeFrame isSocket (sent.encodeWith isSocket crc) rfs.flags rfs.extraFlags
      rfs.dataSz = sent := by
  obtain ⟨hflags, hextra, hdata⟩ := h
  have hnr : sent.frameNr % 0x100 = sent.frameNr := by
    have := hwf.frameNr
    unfold maxFrameNr at this
    omega
  rw [hflags, hextra, hdata, decodeFrame_encodeWith crc _ hwf.mblkId hwf.addr,
    hnr, List.take_length]

/-- What `ioc_connection_receive` does with the complete bytes of a frame. -/
theorem handle_frame
    {isSocket : Bool} {rfs : ReadFrameState} {sent : Frame}
    (hwf : sent.WellFormed isSocket) (hfields : rfs.Fields (.frame sent))
    (hbuf : rfs.buf = sent.encode checksum isSocket) :
    let crc := (rfs.buf.getD 1 0).toNat + 0x100 * (rfs.buf.getD 2 0).toNat
    let buf := if isSocket then rfs.buf else clearChecksum rfs.buf
    (!isSocket && decide (crc ≠ checksum buf % 0x10000)) = false ∧
      decodeFrame isSocket buf rfs.flags rfs.extraFlags rfs.dataSz = sent := by
  rw [hbuf]
  unfold Frame.encode
  cases isSocket with
  | true =>
      simp only [if_true, Bool.not_true, Bool.false_and]
      exact ⟨trivial, decodeFrame_of_fields 0 hwf hfields⟩
  | false =>
      simp only [Bool.false_eq_true, if_false, Bool.not_false, Bool.true_and]
      rw [clearChecksum_encodeWith,
        encodeWith_checksum sent (Nat.mod_lt _ (by decide))]
      exact ⟨decide_eq_false (not_not.mpr rfl), decodeFrame_of_fields 0 hwf hfields⟩

/-- One call of `ioc_connection_receive` in the middle of a message either
leaves a longer prefix of it in the buffer, or handles the message and leaves
the stream at the end of it. -/
theorem connectionReceive_spec
    {con : Connection} {frameIn : FrameIn} {message : Message} {n : ℕ}
    (tail : List UInt8) (reads : List ℕ)
    (hwf : message.WellFormed con.isSocket con.frameSz)
    (hsize : con.frameSz ≤ maxFrameSzOf con.isSocket)
    (hnr : ∀ sent, message = .frame sent → sent.frameNr = frameIn.frameNr)
    (hbuf : frameIn.buf = (message.encode checksum con.isSocket).take n)
    (hn : n < (message.encode checksum con.isSocket).length) :
    ∃ n' received con' frameIn', connectionReceive checksum con frameIn
        ((message.encode checksum con.isSocket).drop n ++ tail) reads =
          some (received, con', frameIn',
            (message.encode checksum con.isSocket).drop n' ++ tail) ∧
      n ≤ n' ∧ n' ≤ (message.encode checksum con.isSocket).length ∧
      (0 < reads.headD 0 → n < n') ∧
      con'.isSocket = con.isSocket ∧ con'.frameSz = con.frameSz ∧
      con'.bytesReceived = (con.bytesReceived + (n' - n)) % 0x100000000 ∧
      (n' = (message.encode checksum con.isSocket).length →
        received = some message ∧
          frameIn' = ⟨message.nextNr frameIn.frameNr, []⟩) ∧
      (n' < (message.encode checksum con.isSocket).length →
        received = none ∧ frameIn' =
          ⟨frameIn.frameNr, (message.encode checksum con.isSocket).take n'⟩) := by
  have hreading : ReadFrameState.Reading checksum
      ⟨con.isSocket, con.frameSz, frameIn.frameNr, frameIn.buf, 0, 0, 0, 0, 0⟩
      message n :=
    { buf := hbuf
      le := hn.le
      wellFormed := hwf
      frameSz := hsize
      frameNr := hnr }
  obtain ⟨rfs, n', hrun, hle, hlen, hbuf', hreceived, hpart, hwhole, hprogress⟩ :=
    readFrameLoop_spec tail reads hreading
  dsimp only at hrun hlen hbuf' hreceived hpart hwhole hprogress
  have hbuflen : rfs.buf.length = n' := by
    rw [hbuf', List.length_take]
    exact Nat.min_eq_left hlen
  have hreceived' : rfs.bytesReceived = n' - n := by omega
  unfold connectionReceive
  rw [hrun]
  dsimp only
  rw [hreceived', hbuflen]
  by_cases hcomplete : n' = (message.encode checksum con.isSocket).length
  · obtain ⟨hneeded, hfields⟩ := hwhole hcomplete
    have hall : rfs.buf = message.encode checksum con.isSocket := by
      rw [hbuf', hcomplete, List.take_length]
    rw [if_neg (by omega)]
    cases message with
    | acknowledge rbytes =>
        have hhead : (rfs.buf.getD 0 0).toNat = acknowledgeByte := by
          rw [hall]
          rfl
        have hbytes : acknowledgedBytes con.isSocket rfs.buf = rbytes := by
          rw [hall]
          exact acknowledgedBytes_acknowledgeBytes hwf
        rw [if_pos hhead, hbytes]
        exact ⟨n', _, _, _, rfl, hle, hlen, hprogress hn, rfl, rfl, rfl,
          fun _ => ⟨rfl, rfl⟩, fun hlt => absurd hcomplete hlt.ne⟩
    | frame sent =>
        have hhead : (rfs.buf.getD 0 0).toNat ≠ acknowledgeByte := by
          rw [hall]
          unfold Message.encode
          rw [Frame.encode_head]
          have := hwf.1
          unfold maxFrameNr at this
          unfold acknowledgeByte
          omega
        obtain ⟨hcrc, hframe⟩ :=
          handle_frame (hwf.frameWellFormed hsize) hfields hall
        rw [if_neg hhead, hcrc, hframe]
        exact ⟨n', _, _, _, rfl, hle, hlen, hprogress hn, rfl, rfl, rfl,
          fun _ => ⟨rfl, rfl⟩, fun hlt => absurd hcomplete hlt.ne⟩
  · have hlt : n' < (message.encode checksum con.isSocket).length := by omega
    rw [if_pos (hpart hlt), hbuf']
    exact ⟨n', _, _, _, rfl, hle, hlen, hprogress hn, rfl, rfl, rfl,
      fun heq => absurd heq hcomplete, fun _ => ⟨rfl, rfl⟩⟩

theorem connectionReceive_nil
    {con : Connection} {frameIn : FrameIn} (reads : List ℕ)
    (hbuf : frameIn.buf = []) :
    connectionReceive checksum con frameIn [] reads =
      some (none, { con with bytesReceived := con.bytesReceived % 0x100000000 },
        frameIn, []) := by
  have hpos : 0 < ackSizeOf con.isSocket := by
    cases con.isSocket <;> decide
  have hexpect : ∀ rfs : ReadFrameState, rfs.buf = [] →
      rfs.expect = some
        { rfs with
          dataSz := 0xFFFF
          needed := ackSizeOf rfs.isSocket
          flags := 0 } := by
    intro rfs hnone
    have hend : ¬headerFieldsEnd rfs.isSocket ≤ 0 := by
      cases rfs.isSocket <;> decide
    unfold ReadFrameState.expect
    rw [hnone, List.length_nil, if_neg (by omega), if_neg hend, if_neg (by omega)]
  have hloop : readFrameLoop ⟨con.isSocket, con.frameSz, frameIn.frameNr,
      frameIn.buf, 0, 0, 0, 0, 0⟩ [] reads =
        some (⟨con.isSocket, con.frameSz, frameIn.frameNr, [], 0,
          ackSizeOf con.isSocket, 0xFFFF, 0, 0⟩, []) := by
    rw [hbuf]
    cases reads with
    | nil => simp only [readFrameLoop, hexpect, Option.map_some]
    | cons given reads =>
        simp only [readFrameLoop, hexpect, List.length_nil, List.take_nil,
          List.append_nil, List.drop_nil, ne_eq, not_true_eq_false, false_and,
          if_false, Nat.add_zero]
        rw [if_neg hpos.ne', if_neg fun h => hpos.ne h.1]
  unfold connectionReceive
  rw [hloop]
  dsimp only [List.length_nil]
  rw [if_pos hpos, ← hbuf, Nat.add_zero]

/-! ## Runs -/

def encodeAll
    (checksum : List UInt8 → ℕ) (isSocket : Bool) (messages : List Message) :
    List UInt8 :=
  messages.flatMap fun message => message.encode checksum isSocket

/-- Between two calls: the buffer and the stream hold the messages which are
still to be received, and the buffer a proper prefix of the first of them. -/
structure Receiving
    (checksum : List UInt8 → ℕ) (con : Connection) (frameIn : FrameIn)
    (stream : List UInt8) (messages : List Message) : Prop where
  frameSz : con.frameSz ≤ maxFrameSzOf con.isSocket
  wellFormed : ∀ message ∈ messages, message.WellFormed con.isSocket con.frameSz
  numbered : Numbered frameIn.frameNr messages
  bytes : frameIn.buf ++ stream = encodeAll checksum con.isSocket messages
  unfinished : ∀ message ∈ messages.head?,
    frameIn.buf.length < (message.encode checksum con.isSocket).length
  nothing : messages = [] → frameIn.buf = []

theorem Receiving.start
    {con : Connection} {nr : ℕ} {messages : List Message}
    (hsize : con.frameSz ≤ maxFrameSzOf con.isSocket)
    (hwf : ∀ message ∈ messages, message.WellFormed con.isSocket con.frameSz)
    (hnumbered : Numbered nr messages) :
    Receiving checksum con ⟨nr, []⟩ (encodeAll checksum con.isSocket messages)
      messages :=
  { frameSz := hsize
    wellFormed := hwf
    numbered := hnumbered
    bytes := rfl
    unfinished := fun message _ => by
      have hpos : 0 < ackSizeOf con.isSocket := by
        cases con.isSocket <;> decide
      exact lt_of_lt_of_le hpos (message.encode_pos con.isSocket)
    nothing := fun _ => rfl }

/-- Once the stream is used up, every message has been received. -/
theorem Receiving.done
    {con : Connection} {frameIn : FrameIn} {messages : List Message}
    (h : Receiving checksum con frameIn [] messages) : messages = [] := by
  cases messages with
  | nil => rfl
  | cons message messages =>
      have hbytes := congrArg List.length h.bytes
      have hlt := h.unfinished message rfl
      simp only [encodeAll, List.flatMap_cons, List.append_nil,
        List.length_append] at hbytes
      omega

/-- One call with the next message at the head of what is still to be read:
the message is received, or a longer part of it is in the buffer. -/
theorem receive_message
    {con : Connection} {frameIn : FrameIn} {stream tail : List UInt8}
    {message : Message} (reads : List ℕ)
    (hwf : message.WellFormed con.isSocket con.frameSz)
    (hsize : con.frameSz ≤ maxFrameSzOf con.isSocket)
    (hnr : ∀ sent, message = .frame sent → sent.frameNr = frameIn.frameNr)
    (hbytes : frameIn.buf ++ stream = message.encode checksum con.isSocket ++ tail)
    (hlt : frameIn.buf.length < (message.encode checksum con.isSocket).length) :
    ∃ received con' frameIn' stream',
      connectionReceive checksum con frameIn stream reads =
        some (received, con', frameIn', stream') ∧
      con'.isSocket = con.isSocket ∧ con'.frameSz = con.frameSz ∧
      stream'.length ≤ stream.length ∧
      con'.bytesReceived ≡
        con.bytesReceived + (stream.length - stream'.length) [MOD 0x100000000] ∧
      (0 < reads.headD 0 → stream'.length < stream.length) ∧
      (received = some message ∧
          frameIn' = ⟨message.nextNr frameIn.frameNr, []⟩ ∧ stream' = tail ∨
        received = none ∧ frameIn'.frameNr = frameIn.frameNr ∧
          frameIn'.buf ++ stream' = message.encode checksum con.isSocket ++ tail ∧
          frameIn'.buf.length < (message.encode checksum con.isSocket).length) := by
  generalize hn : frameIn.buf.length = n at hlt
  have hbuf : frameIn.buf = (message.encode checksum con.isSocket).take n := by
    have htake := congrArg (List.take n) hbytes
    rwa [← hn, List.take_left, hn, List.take_append_of_le_length hlt.le]
      at htake
  have hstream : stream =
      (message.encode checksum con.isSocket).drop n ++ tail := by
    have hdrop := congrArg (List.drop n) hbytes
    rwa [← hn, List.drop_left, hn, List.drop_append_of_le_length hlt.le]
      at hdrop
  obtain ⟨n', received, con', frameIn', hrun, hle, hlen, hprogress, hsocket,
      hsz, hreceived, hwhole, hpart⟩ :=
    connectionReceive_spec tail reads hwf hsize hnr hbuf hlt
  have hlengths : stream.length -
      ((message.encode checksum con.isSocket).drop n' ++ tail).length = n' - n := by
    rw [hstream]
    simp only [List.length_append, List.length_drop]
    omega
  have hshorter : ((message.encode checksum con.isSocket).drop n' ++ tail).length +
      n' = stream.length + n := by
    rw [hstream]
    simp only [List.length_append, List.length_drop]
    omega
  have hmod : con'.bytesReceived ≡ con.bytesReceived +
      (stream.length -
        ((message.encode checksum con.isSocket).drop n' ++ tail).length)
      [MOD 0x100000000] := by
    rw [hlengths, hreceived]
    exact Nat.mod_modEq _ _
  rw [← hstream] at hrun
  refine ⟨received, con', frameIn', _, hrun, hsocket, hsz, by omega, hmod,
    fun hgiven => by have := hprogress hgiven; omega, ?_⟩
  by_cases hcomplete : n' = (message.encode checksum con.isSocket).length
  · obtain ⟨hmessage, hframeIn⟩ := hwhole hcomplete
    left
    refine ⟨hmessage, hframeIn, ?_⟩
    rw [hcomplete, List.drop_length, List.nil_append]
  · have hshort : n' < (message.encode checksum con.isSocket).length := by omega
    obtain ⟨hnone, rfl⟩ := hpart hshort
    right
    refine ⟨hnone, rfl, ?_, ?_⟩
    · dsimp only
      rw [← List.append_assoc, List.take_append_drop]
    · dsimp only
      rw [List.length_take]
      omega

/-- One call keeps what is between two calls, and takes the message which it
handles off the front. -/
theorem Receiving.receive
    {con : Connection} {frameIn : FrameIn} {stream : List UInt8}
    {messages : List Message}
    (h : Receiving checksum con frameIn stream messages) (reads : List ℕ) :
    ∃ received con' frameIn' stream' rest,
      connectionReceive checksum con frameIn stream reads =
        some (received, con', frameIn', stream') ∧
      messages = received.toList ++ rest ∧
      Receiving checksum con' frameIn' stream' rest ∧
      con'.isSocket = con.isSocket ∧ stream'.length ≤ stream.length ∧
      con'.bytesReceived ≡
        con.bytesReceived + (stream.length - stream'.length) [MOD 0x100000000] ∧
      (0 < reads.headD 0 → 0 < stream.length → stream'.length < stream.length) ∧
      frameIn'.frameNr = received.toList.foldl Message.nextNr frameIn.frameNr := by
  cases messages with
  | nil =>
      have hbuf := h.nothing rfl
      have hstream : stream = [] := by
        have hbytes := h.bytes
        rw [hbuf] at hbytes
        exact hbytes
      rw [hstream]
      refine ⟨_, _, _, _, [], connectionReceive_nil reads hbuf, rfl, ?_, rfl,
        le_rfl, Nat.mod_modEq _ _, fun _ hlt => absurd hlt (lt_irrefl 0), rfl⟩
      exact
        { frameSz := h.frameSz
          wellFormed := h.wellFormed
          numbered := h.numbered
          bytes := by rw [hbuf]; rfl
          unfinished := fun message hmem => by cases hmem
          nothing := fun _ => hbuf }
  | cons message messages =>
      obtain ⟨received, con', frameIn', stream', hrun, hsocket, hsz, hle, hmod,
          hprogress, hcase⟩ :=
        receive_message reads (h.wellFormed message (List.mem_cons_self ..)) h.frameSz
          h.numbered.head h.bytes (h.unfinished message rfl)
      have hframeSz : con'.frameSz ≤ maxFrameSzOf con'.isSocket := by
        rw [hsz, hsocket]
        exact h.frameSz
      rcases hcase with ⟨rfl, rfl, rfl⟩ | ⟨rfl, hnr, hbytes, hshort⟩
      · refine ⟨_, _, _, _, messages, hrun, rfl, ?_, hsocket, hle, hmod,
          fun hgiven _ => hprogress hgiven, rfl⟩
        rw [← hsocket]
        refine Receiving.start hframeSz ?_ h.numbered.rest
        rw [hsz, hsocket]
        exact fun sent hmem => h.wellFormed sent (List.mem_cons_of_mem _ hmem)
      · refine ⟨_, _, _, _, message :: messages, hrun, rfl, ?_, hsocket, hle, hmod,
          fun hgiven _ => hprogress hgiven, hnr⟩
        exact
          { frameSz := hframeSz
            wellFormed := by
              rw [hsz, hsocket]
              exact h.wellFormed
            numbered := by
              rw [hnr]
              exact h.numbered
            bytes := by
              rw [hsocket]
              exact hbytes
            unfinished := fun first hfirst => by
              obtain rfl : message = first := Option.some.inj hfirst
              rw [hsocket]
              exact hshort
            nothing := fun hnil => absurd hnil (List.cons_ne_nil _ _) }

theorem Receiving.calls
    {con : Connection} {frameIn : FrameIn} {stream : List UInt8}
    {messages : List Message}
    (h : Receiving checksum con frameIn stream messages) (calls : List (List ℕ)) :
    ∃ received con' frameIn' stream' rest,
      receiveCalls checksum con frameIn stream calls =
        some (received, con', frameIn', stream') ∧
      messages = received ++ rest ∧
      Receiving checksum con' frameIn' stream' rest ∧
      con'.isSocket = con.isSocket ∧ stream'.length ≤ stream.length ∧
      con'.bytesReceived ≡
        con.bytesReceived + (stream.length - stream'.length) [MOD 0x100000000] ∧
      stream'.length ≤
        stream.length - (calls.countP fun reads => decide (0 < reads.headD 0)) ∧
      frameIn'.frameNr = received.foldl Message.nextNr frameIn.frameNr := by
  induction calls generalizing con frameIn stream messages with
  | nil =>
      exact ⟨_, _, _, _, messages, rfl, rfl, h, rfl, le_rfl,
        by rw [Nat.sub_self]; exact Nat.ModEq.refl _, by simp, rfl⟩
  | cons reads calls ih =>
      obtain ⟨first, con₁, frameIn₁, stream₁, rest₁, hfirst, hmessages, h₁,
        hsocket₁, hle₁, hmod₁, hprogress₁, hnr₁⟩ := h.receive reads
      obtain ⟨received, con', frameIn', stream', rest, hrun, hrest, h', hsocket,
        hle, hmod, hprogress, hnr⟩ := ih h₁
      refine ⟨first.toList ++ received, con', frameIn', stream', rest, ?_, ?_, h',
        hsocket.trans hsocket₁, hle.trans hle₁, ?_, ?_, ?_⟩
      · simp only [receiveCalls, hfirst, hrun, Option.map_some]
      · rw [hmessages, hrest, List.append_assoc]
      · have hsum : con.bytesReceived + (stream.length - stream'.length) =
            con.bytesReceived + (stream.length - stream₁.length) +
              (stream₁.length - stream'.length) := by omega
        rw [hsum]
        exact hmod.trans (hmod₁.add_right _)
      · rw [List.countP_cons]
        by_cases hgiven : 0 < reads.headD 0
        · simp only [hgiven, decide_true, if_true]
          have := hprogress₁ hgiven
          omega
        · simp only [hgiven, decide_false, Bool.false_eq_true, if_false]
          omega
      · rw [List.foldl_append, ← hnr₁, hnr]

/-- What has become of a sequence of messages after some calls: the first of
them have been received, as they are, and the bytes taken from the stream are
those of the received messages and a proper prefix of the next one. -/
structure Reassembled
    (checksum : List UInt8 → ℕ) (con : Connection) (messages : List Message)
    (calls : List (List ℕ)) (received : List Message) (con' : Connection)
    (frameIn' : FrameIn) (stream' : List UInt8) (rest : List Message) : Prop where
  inOrder : messages = received ++ rest
  bytes : encodeAll checksum con.isSocket messages =
    encodeAll checksum con.isSocket received ++ frameIn'.buf ++ stream'
  bytesReceived : con'.bytesReceived ≡ con.bytesReceived +
    (encodeAll checksum con.isSocket received ++ frameIn'.buf).length
      [MOD 0x100000000]
  unfinished : ∀ message ∈ rest.head?,
    frameIn'.buf.length < (message.encode checksum con.isSocket).length
  nothing : rest = [] → frameIn'.buf = []
  done : stream' = [] → rest = []
  enough : (encodeAll checksum con.isSocket messages).length ≤
      (calls.countP fun reads => decide (0 < reads.headD 0)) → rest = []

/-- Frame reassembly does not depend on how the stream is chopped: whatever the
stream gives in each call, no call fails and the messages are received in order,
all of them after as many calls that get something as there are bytes. -/
theorem frame_reassembly
    {con : Connection} {nr : ℕ} {messages : List Message}
    (hsize : con.frameSz ≤ maxFrameSzOf con.isSocket)
    (hwf : ∀ message ∈ messages, message.WellFormed con.isSocket con.frameSz)
    (hnumbered : Numbered nr messages) (calls : List (List ℕ)) :
    ∃ received con' frameIn' stream' rest,
      receiveCalls checksum con ⟨nr, []⟩
          (encodeAll checksum con.isSocket messages) calls =
        some (received, con', frameIn', stream') ∧
      Reassembled checksum con messages calls received con' frameIn' stream'
        rest := by
  obtain ⟨received, con', frameIn', stream', rest, hrun, hmessages, h, hsocket,
      hle, hmod, hprogress, -⟩ :=
    (@Receiving.start checksum _ _ _ hsize hwf hnumbered).calls calls
  have hsplit : encodeAll checksum con.isSocket messages =
      encodeAll checksum con.isSocket received ++ frameIn'.buf ++ stream' := by
    rw [List.append_assoc, h.bytes, hsocket, hmessages]
    exact List.flatMap_append ..
  have hconsumed : (encodeAll checksum con.isSocket messages).length -
      stream'.length =
        (encodeAll checksum con.isSocket received ++ frameIn'.buf).length := by
    rw [hsplit, List.length_append]
    omega
  have hdone : stream' = [] → rest = [] := by
    rintro rfl
    exact h.done
  refine ⟨received, con', frameIn', stream', rest, hrun, ?_⟩
  exact
    { inOrder := hmessages
      bytes := hsplit
      bytesReceived := by
        rw [← hconsumed]
        exact hmod
      unfinished := by
        rw [← hsocket]
        exact h.unfinished
      nothing := h.nothing
      done := hdone
      enough := fun hmany => hdone (List.length_eq_zero_iff.mp (by omega)) }

def serialReader : Connection where
  isSocket := false
  connectUp := true
  frameSz := serialFrameSz
  dstFrameSz := serialFrameSz
  maxInAir := serialMaxInAir
  maxAckInAir := serialMaxAckInAir
  unacknowledgedLimit := serialUnacknowledgedLimit
  bytesSent := 0
  processedBytes := 0
  bytesReceived := 0
  bytesAcknowledged := 0
  frameOutUsed := 0
  frameOutPos := 0
  frameOutNr := 0
  authenticationSent := false
  authenticationReceived := false

def shortExchange : List Message :=
  [.frame ⟨0, false, ⟨false, false, true⟩, 300, 0, [5, 6]⟩, .acknowledge 0x102]

theorem shortExchange_numbered : Numbered 0 shortExchange := ⟨rfl, trivial⟩

theorem shortExchange_wellFormed : ∀ message ∈ shortExchange,
    message.WellFormed serialReader.isSocket serialReader.frameSz := by
  intro message hmem
  rcases List.mem_cons.mp hmem with rfl | hmem
  · exact ⟨by decide, by decide, by decide, by decide⟩
  · obtain rfl := List.mem_singleton.mp hmem
    show 0x102 < ackModulusOf false
    decide

/-- The header is cut in the middle, and the acknowledgement as well. -/
theorem frame_reassembly_shortExchange :
    ∃ received con' frameIn' stream' rest,
      receiveCalls (fun _ => 0x1234) serialReader ⟨0, []⟩
          (encodeAll (fun _ => 0x1234) serialReader.isSocket shortExchange)
          [[3, 2], [0], [9], [9], [1], [9]] =
        some (received, con', frameIn', stream') ∧
      Reassembled (fun _ => 0x1234) serialReader shortExchange
        [[3, 2], [0], [9], [9], [1], [9]] received con' frameIn' stream' rest :=
  frame_reassembly (by decide) shortExchange_wellFormed shortExchange_numbered _

end Iocom
