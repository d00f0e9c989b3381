import Iocom.Gazerbeam
import Iocom.Lib.Overwrite
import Mathlib.Tactic.IntervalCases

/-!
# Decoding of gazerbeam messages

What the receiver holds after some bits of a message, and that no bits make it write
outside its buffers.
-/

namespace Iocom

open BitGroups

namespace GazerbeamReceiver

variable {checksum : List UInt8 → UInt16} {gb gb' : GazerbeamReceiver} {bit : GazerbeamBit}

/-! ## Bounds -/

theorem storeChar_of_lt {buf : List UInt8} {i : ℕ} {c : UInt8} (h : i < buf.length) :
    storeChar buf i c = some (buf.set i c) := if_pos h

theorem trimmedSize_of_le {msgbuf : List UInt8} {n : ℕ} (h : n ≤ msgbuf.length) :
    ∃ k ≤ n, trimmedSize msgbuf n = some k := by
  induction n with
  | zero => exact ⟨0, le_rfl, rfl⟩
  | succ n ih =>
      obtain ⟨k, hk, htrimmed⟩ := ih (by omega)
      simp only [trimmedSize, List.getElem?_eq_getElem (show n < msgbuf.length by omega),
        Option.bind_eq_bind, Option.bind_some]
      split_ifs
      · exact ⟨n + 1, le_rfl, rfl⟩
      · exact ⟨n + 1, le_rfl, rfl⟩
      · exact ⟨k, by omega, htrimmed⟩

theorem copyChars_eq_overwrite {src dst : List UInt8} {ss dd count : ℕ}
    (hsrc : ss + count ≤ src.length) (hdst : dd + count ≤ dst.length) :
    copyChars src ss dst dd count =
      some (Buffer.overwrite dst dd ((src.drop ss).take count)) := by
  induction count generalizing ss dst dd with
  | zero => simp [copyChars, Buffer.overwrite]
  | succ count ih =>
      have hss : ss < src.length := by omega
      have hdd : dd < dst.length := by omega
      have hdrop : (src.drop ss).take (count + 1) = src[ss] :: (src.drop (ss + 1)).take count := by
        rw [List.drop_eq_getElem_cons hss, List.take_succ_cons]
      have htake : (dst.set dd src[ss]).take (dd + 1) = dst.take dd ++ [src[ss]] := by
        rw [List.take_succ_eq_append_getElem (by simpa using hdd)]
        simp [List.take_set_of_le]
      have hrest : ∀ k, dd < k → (dst.set dd src[ss]).drop k = dst.drop k :=
        fun k hk => List.drop_set_of_lt hk
      simp only [copyChars, List.getElem?_eq_getElem hss, storeChar_of_lt hdd,
        Option.bind_eq_bind, Option.bind_some]
      rw [ih (by omega) (by simp; omega), hdrop]
      simp only [Buffer.overwrite, htake, List.length_cons]
      rw [hrest _ (by omega)]
      simp [Nat.add_assoc, Nat.add_comm 1]

structure Bounded (gb : GazerbeamReceiver) : Prop where
  msgbuf : gb.msgbuf.length = 131
  finshed : gb.finshedMessage.length = 128
  pos : ∀ p, gb.receivePos = some p → p < 130
  zeros : gb.nZeros ≤ 14

theorem initialize_bounded : initializeGazerbeamReceiver.Bounded where
  msgbuf := by simp [initializeGazerbeamReceiver, gazerbeamMaxMsgSz]
  finshed := by simp [initializeGazerbeamReceiver, gazerbeamMaxMsgSz]
  pos := by simp [initializeGazerbeamReceiver]
  zeros := Nat.zero_le _

/-- What is left of the message buffer when the checksum has been taken. -/
def clearedBuffer (msgbuf : List UInt8) : List UInt8 := ((msgbuf.set 0 0).set 1 0).set 2 0

theorem finishMessage_eq {nBytes : ℕ} (h : gb.Bounded) (hlo : 3 ≤ nBytes) (hhi : nBytes ≤ 131) :
    gb.finishMessage checksum nBytes =
      if receivedCrc (gb.msgbuf.getD 0 0) (gb.msgbuf.getD 1 0) (gb.msgbuf.getD 2 0) ≠
          checksum ((clearedBuffer gb.msgbuf).take nBytes) then
        some (.checksumError, { gb with msgbuf := clearedBuffer gb.msgbuf })
      else
        some (.completed,
          { gb with
            msgbuf := clearedBuffer gb.msgbuf
            finshedMessage := Buffer.overwrite gb.finshedMessage 0
              (((clearedBuffer gb.msgbuf).drop 3).take (nBytes - 3))
            finshedMessageSz := nBytes - 3 }) := by
  have hlen := h.msgbuf
  have hget : ∀ i, i < 131 → gb.msgbuf[i]? = some (gb.msgbuf.getD i 0) := by
    intro i hi
    rw [List.getD_eq_getElem _ _ (by omega), List.getElem?_eq_getElem]
  have hcleared : (clearedBuffer gb.msgbuf).length = 131 := by simp [clearedBuffer, hlen]
  have hcopy : copyChars (clearedBuffer gb.msgbuf) 3 gb.finshedMessage 0 (nBytes - 3) =
      some (Buffer.overwrite gb.finshedMessage 0
        (((clearedBuffer gb.msgbuf).drop 3).take (nBytes - 3))) :=
    copyChars_eq_overwrite (by omega) (by have := h.finshed; omega)
  simp only [finishMessage, hget _ (show 2 < 131 by omega), hget _ (show 1 < 131 by omega),
    hget _ (show 0 < 131 by omega), Option.bind_eq_bind, Option.bind_some]
  rw [storeChar_of_lt (by omega), Option.bind_some, storeChar_of_lt (by simp; omega),
    Option.bind_some, storeChar_of_lt (by simp; omega), Option.bind_some]
  change (if (clearedBuffer gb.msgbuf).length < nBytes then none
    else if _ ≠ checksum ((clearedBuffer gb.msgbuf).take nBytes) then _ else _) = _
  rw [if_neg (by omega)]
  split_ifs with hsum
  · rfl
  · change (copyChars (clearedBuffer gb.msgbuf) 3 gb.finshedMessage 0 (nBytes - 3)).bind _ = _
    rw [hcopy]
    rfl

/-- The message buffer after a bit of the character at `pos`. -/
def bitBuffer (gb : GazerbeamReceiver) (pos : ℕ) (bit : GazerbeamBit) : List UInt8 :=
  gb.msgbuf.set pos
    (gb.msgbuf.getD pos 0 ||| (if bit = .one then gb.receiveBit else 0))

@[simp] theorem length_bitBuffer (pos : ℕ) :
    (gb.bitBuffer pos bit).length = gb.msgbuf.length := by simp [bitBuffer]

theorem storeMessageBit_eq {pos : ℕ} (hpos : pos < gb.msgbuf.length) (bit : GazerbeamBit) :
    gb.storeMessageBit pos bit = some (gb.bitBuffer pos bit) := by
  cases bit <;> simp [storeMessageBit, bitBuffer, hpos, storeChar_of_lt]

theorem receiveMessageBit_bounded (h : gb.Bounded) (bit : GazerbeamBit) :
    ∃ s gb', gb.receiveMessageBit bit = some (s, gb') ∧ gb'.Bounded := by
  unfold receiveMessageBit
  cases hpos : gb.receivePos with
  | none => exact ⟨_, _, rfl, h⟩
  | some pos =>
      have hlt := h.pos pos hpos
      have hlen := h.msgbuf
      have hsize : (gb.bitBuffer pos bit).length = 131 := by simpa using hlen
      simp only [storeMessageBit_eq (show pos < gb.msgbuf.length by omega) bit,
        Option.bind_eq_bind, Option.bind_some, gazerbeamMaxMsgSz,
        storeChar_of_lt (show pos + 1 < (gb.bitBuffer pos bit).length by omega)]
      split_ifs with hstart hzero hlast hfull
      · exact ⟨_, _, rfl, h⟩
      · exact ⟨_, _, rfl, h.msgbuf, h.finshed, by simpa using hlt, h.zeros⟩
      · exact ⟨_, _, rfl, hsize, h.finshed, by simp, h.zeros⟩
      · refine ⟨_, _, rfl, by simpa using hsize, h.finshed, ?_, h.zeros⟩
        rintro p hp
        simp only [Option.some.injEq] at hp
        omega
      · exact ⟨_, _, rfl, hsize, h.finshed, by simpa using hlt, h.zeros⟩

variable (checksum) in
/-- Whatever bit is received, nothing is accessed outside the buffers. -/
theorem decodeMessage_bounded (h : gb.Bounded) (bit : GazerbeamBit) :
    ∃ s gb', gb.decodeMessage checksum bit = some (s, gb') ∧ gb'.Bounded := by
  cases bit with
  | one =>
      simp only [decodeMessage]
      split_ifs with hstart
      · rw [storeChar_of_lt (by have := h.msgbuf; omega)]
        have hbegun : { gb with
            receivePos := some 0
            receiveBit := 0
            msgbuf := gb.msgbuf.set 0 0
            nZeros := 0 }.Bounded :=
          ⟨by simpa using h.msgbuf, h.finshed, by simp, Nat.zero_le _⟩
        exact receiveMessageBit_bounded hbegun .one
      · have hcounted : { gb with nZeros := 0 }.Bounded :=
          ⟨h.msgbuf, h.finshed, h.pos, Nat.zero_le _⟩
        exact receiveMessageBit_bounded hcounted .one
  | zero =>
      simp only [decodeMessage]
      set counted := if gb.nZeros < leadingZeroes then { gb with nZeros := gb.nZeros + 1 } else gb
        with hcounted
      have hbounded : counted.Bounded := by
        rw [hcounted]
        split_ifs with hlt
        · exact ⟨h.msgbuf, h.finshed, h.pos, hlt⟩
        · exact h
      split_ifs with hfull
      · cases hpos : counted.receivePos with
        | none => exact receiveMessageBit_bounded hbounded .zero
        | some pos =>
            have hlt := hbounded.pos pos hpos
            obtain ⟨k, hk, htrimmed⟩ :=
              trimmedSize_of_le (show pos ≤ counted.msgbuf.length by rw [hbounded.msgbuf]; omega)
            have hdropped : { counted with receivePos := none }.Bounded :=
              ⟨hbounded.msgbuf, hbounded.finshed, by simp, hbounded.zeros⟩
            simp only [htrimmed, Option.bind_eq_bind, Option.bind_some]
            split_ifs with hmessage
            · have hcleared : (clearedBuffer counted.msgbuf).length = 131 := by
                simp [clearedBuffer, hbounded.msgbuf]
              have hfinshed := hbounded.finshed
              rw [finishMessage_eq hdropped (by omega) (by omega)]
              split_ifs
              · exact ⟨_, _, rfl, hcleared, hbounded.finshed, by simp, hbounded.zeros⟩
              · refine ⟨_, _, rfl, hcleared, ?_, by simp, hbounded.zeros⟩
                rw [Buffer.overwrite_length]
                · exact hfinshed
                · simp
                  omega
            · exact receiveMessageBit_bounded hdropped .zero
      · exact receiveMessageBit_bounded hbounded .zero

/-! ## The bits received so far -/

/-- `bits` are the bits of the message which is being received: the characters which
are complete and the bits of the next one. -/
structure Receiving (gb : GazerbeamReceiver) (bits : List Bool) : Prop where
  short : bits.length < 910
  pos : gb.receivePos = some (bits.length / 7)
  bit : gb.receiveBit.toNat = 2 ^ (bits.length % 7)
  cell : ∀ j ≤ bits.length / 7, ∀ i,
    (gb.msgbuf.getD j 0).toNat.testBit i = (decide (i < 7) && bits.getD (7 * j + i) false)

def InPhase (gb : GazerbeamReceiver) : Option (List Bool) → Prop
  | none => gb.receivePos = none
  | some bits => gb.Receiving bits

/-- What one more bit makes of the bits received so far: the message is given up when
its last character does not fit. -/
def phaseStep : Option (List Bool) → Bool → Option (List Bool)
  | none, _ => none
  | some bits, b => if bits.length + 1 < 910 then some (bits ++ [b]) else none

theorem getD_append_singleton (bits : List Bool) (b : Bool) (k : ℕ) :
    (bits ++ [b]).getD k false =
      (bits.getD k false || (decide (k = bits.length) && b)) := by
  rcases lt_trichotomy k bits.length with h | h | h
  · rw [List.getD_append _ _ _ _ h]
    simp [Nat.ne_of_lt h]
  · subst h
    simp
  · rw [List.getD_eq_default _ _ (by simp; omega), List.getD_eq_default _ _ (by omega)]
    simp [Nat.ne_of_gt h]

variable {bits : List Bool} {b : Bool}

theorem Receiving.bitBuffer_cell (h : gb.Receiving bits) (hlen : gb.msgbuf.length = 131) {j : ℕ}
    (hj : j ≤ bits.length / 7) (i : ℕ) :
    ((gb.bitBuffer (bits.length / 7) (.ofBool b)).getD j 0).toNat.testBit i =
      (decide (i < 7) && (bits ++ [b]).getD (7 * j + i) false) := by
  have hshort := h.short
  have hr : bits.length % 7 < 7 := Nat.mod_lt _ (by omega)
  rw [getD_append_singleton]
  rcases Nat.lt_or_eq_of_le hj with hlt | rfl
  · have hother : (gb.bitBuffer (bits.length / 7) (.ofBool b)).getD j 0 = gb.msgbuf.getD j 0 := by
      simp [bitBuffer, List.getD_eq_getElem?_getD, List.getElem?_set_ne (Nat.ne_of_gt hlt)]
    rw [hother, h.cell j hj i]
    by_cases hi : i < 7
    · have hne : 7 * j + i ≠ bits.length := by omega
      simp [hne]
    · simp [hi]
  · have hsame : (gb.bitBuffer (bits.length / 7) (.ofBool b)).getD (bits.length / 7) 0 =
        gb.msgbuf.getD (bits.length / 7) 0 |||
          (if GazerbeamBit.ofBool b = .one then gb.receiveBit else 0) := by
      rw [bitBuffer, List.getD_eq_getElem _ _ (by simp; omega), List.getElem_set_self]
    rw [hsame, UInt8.toNat_or, Nat.testBit_or, h.cell _ le_rfl i]
    cases b with
    | false => simp [GazerbeamBit.ofBool]
    | true =>
        have hbit : (gb.receiveBit.toNat).testBit i = decide (bits.length % 7 = i) := by
          rw [h.bit, Nat.testBit_two_pow]
        simp only [GazerbeamBit.ofBool, if_true, hbit, Bool.and_true]
        by_cases hi : i < 7
        · have hiff : bits.length % 7 = i ↔ 7 * (bits.length / 7) + i = bits.length := by omega
          simp [hi, hiff]
        · have hne : bits.length % 7 ≠ i := by omega
          simp [hi, hne]

/-- Where nothing has been received the line counts as zeros. -/
theorem getD_beyond {j i : ℕ} (hj : bits.length ≤ 7 * j) : bits.getD (7 * j + i) false = false := by
  rw [List.getD_eq_default _ _ (by omega)]

theorem receiveBit_ne_zero (h : gb.Receiving bits) : gb.receiveBit ≠ 0 := by
  intro hzero
  have hbit := h.bit
  rw [hzero] at hbit
  have hpos : 0 < 2 ^ (bits.length % 7) := Nat.two_pow_pos _
  simp at hbit
  omega

theorem eq_ofNat_receiveBit (h : gb.Receiving bits) :
    gb.receiveBit = UInt8.ofNat (2 ^ (bits.length % 7)) := by
  rw [← h.bit, UInt8.ofNat_toNat]

theorem receiveBit_last (h : gb.Receiving bits) :
    gb.receiveBit &&& 0x40 ≠ 0 ↔ bits.length % 7 = 6 := by
  have hr : bits.length % 7 < 7 := Nat.mod_lt _ (by omega)
  rw [eq_ofNat_receiveBit h]
  generalize bits.length % 7 = r at hr
  interval_cases r <;> decide

theorem receiveBit_shift (h : gb.Receiving bits) (hr : bits.length % 7 < 6) :
    (gb.receiveBit <<< 1).toNat = 2 ^ (bits.length % 7 + 1) := by
  rw [eq_ofNat_receiveBit h]
  generalize bits.length % 7 = r at hr
  interval_cases r <;> decide

theorem InPhase.receiveMessageBit {phase : Option (List Bool)} (h : gb.InPhase phase)
    (hlen : gb.msgbuf.length = 131) :
    ∃ s gb', gb.receiveMessageBit (.ofBool b) = some (s, gb') ∧ s ≠ .completed ∧
      gb'.InPhase (phaseStep phase b) ∧ gb'.nZeros = gb.nZeros ∧
      gb'.finshedMessageSz = gb.finshedMessageSz := by
  cases phase with
  | none =>
      have hpos : gb.receivePos = none := h
      refine ⟨.pending, gb, ?_, by decide, h, rfl, rfl⟩
      simp [GazerbeamReceiver.receiveMessageBit, hpos]
  | some bits =>
      have hreceiving : gb.Receiving bits := h
      have hshort := hreceiving.short
      have hstore := storeMessageBit_eq (show bits.length / 7 < gb.msgbuf.length by omega)
        (.ofBool b)
      simp only [GazerbeamReceiver.receiveMessageBit, hreceiving.pos,
        if_neg (receiveBit_ne_zero hreceiving), hstore, Option.bind_eq_bind, Option.bind_some,
        receiveBit_last hreceiving]
      have hmax : gazerbeamMaxMsgSz = 128 := rfl
      by_cases hlast : bits.length % 7 = 6
      · rw [if_pos hlast]
        by_cases hfull : bits.length + 1 < 910
        · rw [if_neg (by omega), storeChar_of_lt (by simp; omega)]
          refine ⟨_, _, rfl, by decide, ?_, rfl, rfl⟩
          simp only [phaseStep, if_pos hfull]
          have hdiv : (bits ++ [b]).length / 7 = bits.length / 7 + 1 := by
            simp
            omega
          have hmod : (bits ++ [b]).length % 7 = 0 := by
            simp
            omega
          refine ⟨by simpa using hfull, by rw [hdiv], by rw [hmod]; rfl, ?_⟩
          intro j hj i
          rw [hdiv] at hj
          rcases Nat.lt_or_eq_of_le hj with hlt | rfl
          · rw [← hreceiving.bitBuffer_cell hlen (b := b) (show j ≤ bits.length / 7 by omega) i]
            simp [List.getD_eq_getElem?_getD, List.getElem?_set_ne (Nat.ne_of_gt hlt)]
          · rw [getD_beyond (by simp; omega), List.getD_eq_getElem _ _ (by simp; omega),
              List.getElem_set_self]
            simp
        · rw [if_pos (by omega)]
          refine ⟨_, _, rfl, by decide, ?_, rfl, rfl⟩
          simp only [phaseStep, if_neg hfull]
          rfl
      · rw [if_neg hlast]
        have hr : bits.length % 7 < 7 := Nat.mod_lt _ (by omega)
        have hfull : bits.length + 1 < 910 := by omega
        have hdiv : (bits ++ [b]).length / 7 = bits.length / 7 := by
          simp
          omega
        have hmod : (bits ++ [b]).length % 7 = bits.length % 7 + 1 := by
          simp
          omega
        refine ⟨_, _, rfl, by decide, ?_, rfl, rfl⟩
        simp only [phaseStep, if_pos hfull]
        refine ⟨by simpa using hfull, by rw [hdiv], ?_, ?_⟩
        · rw [hmod]
          exact receiveBit_shift hreceiving (by omega)
        · intro j hj i
          rw [hdiv] at hj
          exact hreceiving.bitBuffer_cell hlen hj i

/-! ## One received bit -/

/-- What the receiver knows of the line, and the size of the message which waits to be
read. -/
structure At (gb : GazerbeamReceiver) (phase : Option (List Bool)) (zeros size : ℕ) : Prop where
  bounded : gb.Bounded
  phase : gb.InPhase phase
  zeros : gb.nZeros = zeros
  size : gb.finshedMessageSz = size

variable {phase : Option (List Bool)} {n size : ℕ}

theorem InPhase.setZeros (h : gb.InPhase phase) (zeros : ℕ) :
    { gb with nZeros := zeros }.InPhase phase := by
  cases phase with
  | none => exact h
  | some bits => exact ⟨h.short, h.pos, h.bit, h.cell⟩

variable (checksum) in
theorem At.quiet (h : gb.At phase n size) (hn : n < 14) (hb : zeroStep n b < 14) :
    ∃ s gb', gb.decodeMessage checksum (.ofBool b) = some (s, gb') ∧ s ≠ .completed ∧
      gb'.At (phaseStep phase b) (zeroStep n b) size := by
  have hcounted := h.phase.setZeros (zeroStep n b)
  have hdecode : gb.decodeMessage checksum (.ofBool b) =
      { gb with nZeros := zeroStep n b }.receiveMessageBit (.ofBool b) := by
    have hzeros := h.zeros
    cases b with
    | true =>
        have hne : gb.nZeros ≠ leadingZeroes := by
          simp only [leadingZeroes]
          omega
        simp [GazerbeamBit.ofBool, decodeMessage, hne]
    | false =>
        have hlt : gb.nZeros < leadingZeroes := by
          simp only [leadingZeroes]
          omega
        have hne : gb.nZeros + 1 ≠ leadingZeroes := by
          simp only [leadingZeroes]
          simp at hb
          omega
        simp only [GazerbeamBit.ofBool, decodeMessage, if_pos hlt, zeroStep_false, ← hzeros,
          Bool.false_eq_true, if_false, if_neg hne]
  obtain ⟨s, gb', hstep, hstatus, hphase, hzeros, hsize⟩ :=
    hcounted.receiveMessageBit (b := b) h.bounded.msgbuf
  obtain ⟨s', gb'', hbound, hbounded⟩ :=
    decodeMessage_bounded checksum h.bounded (.ofBool b)
  rw [hdecode, hstep] at hbound
  cases hbound
  exact ⟨s, gb', by rw [hdecode, hstep], hstatus, hbounded, hphase, hzeros, hsize.trans h.size⟩

variable (checksum) in
theorem At.idle (h : gb.At none n size) :
    ∃ s gb', gb.decodeMessage checksum .zero = some (s, gb') ∧ s ≠ .completed ∧
      gb'.At none (min 14 (n + 1)) size := by
  have hpos : gb.receivePos = none := h.phase
  have hzeros := h.zeros
  have hle := h.bounded.zeros
  by_cases hlt : gb.nZeros < leadingZeroes
  · have hmin : min 14 (n + 1) = gb.nZeros + 1 := by
      simp only [leadingZeroes] at hlt
      omega
    have hdecode : gb.decodeMessage checksum .zero =
        some (.pending, { gb with nZeros := gb.nZeros + 1 }) := by
      simp [decodeMessage, hlt, receiveMessageBit, hpos]
    refine ⟨_, _, hdecode, by decide, ⟨h.bounded.msgbuf, h.bounded.finshed, h.bounded.pos, hlt⟩,
      h.phase.setZeros _, hmin.symm, h.size⟩
  · have hmin : min 14 (n + 1) = gb.nZeros := by
      simp only [leadingZeroes] at hlt
      omega
    have hdecode : gb.decodeMessage checksum .zero = some (.pending, gb) := by
      simp [decodeMessage, hlt, receiveMessageBit, hpos]
    exact ⟨_, _, hdecode, by decide, h.bounded, h.phase, hmin.symm, h.size⟩

variable (checksum) in
theorem At.begin (h : gb.At phase 14 size) :
    ∃ s gb', gb.decodeMessage checksum .one = some (s, gb') ∧ s ≠ .completed ∧
      gb'.At (some []) 0 size := by
  have hlen := h.bounded.msgbuf
  have hdecode : gb.decodeMessage checksum .one =
      some (.success,
        { gb with
          receivePos := some 0
          receiveBit := 1
          msgbuf := gb.msgbuf.set 0 0
          nZeros := 0 }) := by
    have hfull : gb.nZeros = leadingZeroes := h.zeros
    simp [decodeMessage, hfull, storeChar_of_lt (show 0 < gb.msgbuf.length by omega),
      receiveMessageBit]
  refine ⟨_, _, hdecode, by decide,
    ⟨by simpa using hlen, h.bounded.finshed, by simp, Nat.zero_le _⟩, ?_, rfl, h.size⟩
  refine ⟨by simp, rfl, rfl, ?_⟩
  intro j hj i
  obtain rfl : j = 0 := by simpa using hj
  have hzero : (gb.msgbuf.set 0 0).getD 0 0 = 0 := by
    rw [List.getD_eq_getElem _ _ (by simp; omega), List.getElem_set_self]
  rw [hzero]
  simp

/-! ## The end of a message -/

theorem trimmedSize_eq {msgbuf : List UInt8} {k n : ℕ} (hk : 4 ≤ k) (hkn : k ≤ n)
    (hlen : n ≤ msgbuf.length) (hlast : msgbuf.getD (k - 1) 0 ≠ 0)
    (hzero : ∀ j, k ≤ j → j < n → msgbuf.getD j 0 = 0) :
    trimmedSize msgbuf n = some k := by
  induction n with
  | zero => omega
  | succ n ih =>
      have hget : msgbuf[n]? = some (msgbuf.getD n 0) := by
        rw [List.getD_eq_getElem _ _ (by omega), List.getElem?_eq_getElem]
      simp only [trimmedSize, if_neg (show ¬n + 1 < 4 by omega), hget, Option.bind_eq_bind,
        Option.bind_some]
      rcases Nat.lt_or_eq_of_le hkn with hlt | rfl
      · rw [if_neg (by simpa using hzero n (by omega) (by omega))]
        exact ih (by omega) (by omega) fun j hkj hjn => hzero j hkj (by omega)
      · exact if_pos hlast

/-- The characters of a message stand in the buffer, zeros after them. -/
theorem Receiving.chars {all : List UInt8} {z : ℕ}
    (h : gb.Receiving (groupBits 7 (all.map UInt8.toNat) ++ List.replicate z false))
    (hcodes : ∀ c ∈ all, c.toNat < 128) {j : ℕ}
    (hj : j < (7 * all.length + z) / 7) : gb.msgbuf.getD j 0 = all.getD j 0 := by
  have hcode : (all.getD j 0).toNat < 128 := by
    by_cases hlt : j < all.length
    · rw [List.getD_eq_getElem _ _ hlt]
      exact hcodes _ (List.getElem_mem hlt)
    · rw [List.getD_eq_default _ _ (by omega)]
      decide
  have hmap : (all.map UInt8.toNat).getD j 0 = (all.getD j 0).toNat := by
    simp only [List.getD_eq_getElem?_getD, List.getElem?_map]
    cases all[j]? <;> rfl
  apply UInt8.toNat_inj.mp
  apply Nat.eq_of_testBit_eq
  intro i
  rw [h.cell j (by simp; omega) i]
  by_cases hi : i < 7
  · by_cases hin : 7 * j + i < 7 * all.length
    · rw [List.getD_append _ _ _ _ (by simpa using hin), getD_groupBits hi, hmap]
      simp [hi]
    · have hout : all.length ≤ j := by omega
      rw [List.getD_append_right _ _ _ _ (by simp; omega), List.getD_eq_default all _ hout]
      simp
  · have htop : (all.getD j 0).toNat.testBit i = false := by
      apply Nat.testBit_lt_two_pow
      calc (all.getD j 0).toNat < 2 ^ 7 := hcode
        _ ≤ 2 ^ i := Nat.pow_le_pow_right (by omega) (by omega)
    rw [htop]
    simp [hi]

/-- The message is delivered with the last of 14 zeros, when the previous one has been
read and the checksum is right. -/
theorem At.complete {c0 c1 c2 last : UInt8} {init : List UInt8} {z : ℕ}
    (h : gb.At (some (groupBits 7 ((c0 :: c1 :: c2 :: (init ++ [last])).map UInt8.toNat) ++
      List.replicate z false)) 13 0)
    (hcodes : ∀ c ∈ c0 :: c1 :: c2 :: (init ++ [last]), c.toNat < 128) (hlast : last ≠ 0)
    (hsum : receivedCrc c0 c1 c2 = checksum (0 :: 0 :: 0 :: (init ++ [last]))) :
    ∃ gb', gb.decodeMessage checksum .zero = some (.completed, gb') ∧
      gb'.At none 14 (init ++ [last]).length ∧
      gb'.finshedMessage.take gb'.finshedMessageSz = init ++ [last] := by
  set all := c0 :: c1 :: c2 :: (init ++ [last]) with hall
  have hlength : all.length = init.length + 4 := by simp [hall]
  have hreceiving : gb.Receiving (groupBits 7 (all.map UInt8.toNat) ++ List.replicate z false) :=
    h.phase
  have hlen := h.bounded.msgbuf
  have hshort := hreceiving.short
  simp only [List.length_append, length_groupBits, List.length_map, List.length_replicate]
    at hshort
  have hchar : ∀ j, j < (7 * all.length + z) / 7 → gb.msgbuf.getD j 0 = all.getD j 0 :=
    fun j hj => hreceiving.chars hcodes hj
  have htrimmed : trimmedSize gb.msgbuf ((7 * all.length + z) / 7) = some all.length := by
    apply trimmedSize_eq (by omega) (by omega) (by omega)
    · rw [hchar _ (by omega)]
      have hend : all.getD (all.length - 1) 0 = last := by
        rw [hlength]
        simp [hall, List.getD_eq_getElem?_getD]
      rwa [hend]
    · intro j hj hlt
      rw [hchar j hlt, List.getD_eq_default _ _ hj]
  have htake : gb.msgbuf.take all.length = all := by
    apply List.ext_getElem (by simp; omega)
    intro j hj hj'
    have hget := hchar j (by omega)
    rw [List.getD_eq_getElem _ _ (by omega), List.getD_eq_getElem _ _ hj'] at hget
    simpa using hget
  have hcleared : (clearedBuffer gb.msgbuf).take all.length = 0 :: 0 :: 0 :: (init ++ [last]) := by
    simp only [clearedBuffer, List.take_set, htake]
    rfl
  have hpart : ((clearedBuffer gb.msgbuf).drop 3).take (all.length - 3) = init ++ [last] := by
    rw [← List.drop_take, hcleared]
    rfl
  have hbounded : { gb with nZeros := gb.nZeros + 1, receivePos := none }.Bounded := by
    have hzeros := h.zeros
    exact ⟨hlen, h.bounded.finshed, by simp, by simp; omega⟩
  have hdecode : gb.decodeMessage checksum .zero =
      { gb with nZeros := gb.nZeros + 1, receivePos := none }.finishMessage checksum
        all.length := by
    have hlt : gb.nZeros < leadingZeroes := by
      rw [h.zeros]
      decide
    have hfull : gb.nZeros + 1 = leadingZeroes := by
      rw [h.zeros]
      rfl
    have hpos : gb.receivePos = some ((7 * all.length + z) / 7) := by
      simpa using hreceiving.pos
    have hmessage : 4 ≤ all.length ∧ gb.finshedMessageSz = 0 := ⟨by omega, h.size⟩
    simp only [decodeMessage, if_pos hlt, if_pos hfull, hpos, htrimmed, Option.bind_eq_bind,
      Option.bind_some, if_pos hmessage]
  have hcells : receivedCrc (gb.msgbuf.getD 0 0) (gb.msgbuf.getD 1 0) (gb.msgbuf.getD 2 0) =
      receivedCrc c0 c1 c2 := by
    rw [hchar 0 (by omega), hchar 1 (by omega), hchar 2 (by omega)]
    rfl
  rw [hdecode, finishMessage_eq hbounded (by omega) (by omega)]
  simp only [hcells, hcleared, hsum, hpart, ne_eq, not_true_eq_false, if_false]
  have hfinshed := h.bounded.finshed
  have hsize : all.length - 3 = (init ++ [last]).length := by simp [hlength]
  refine ⟨_, rfl, ⟨⟨?_, ?_, by simp, hbounded.zeros⟩, rfl, ?_, hsize⟩, ?_⟩
  · simpa [clearedBuffer] using hlen
  · change (Buffer.overwrite gb.finshedMessage 0 (init ++ [last])).length = 128
    rw [Buffer.overwrite_length (by omega)]
    exact hfinshed
  · change gb.nZeros + 1 = 14
    rw [h.zeros]
  · change (Buffer.overwrite gb.finshedMessage 0 (init ++ [last])).take (all.length - 3) = _
    rw [hsize]
    simp only [Buffer.overwrite, List.take_zero, List.nil_append]
    exact List.take_left

end GazerbeamReceiver

end Iocom
