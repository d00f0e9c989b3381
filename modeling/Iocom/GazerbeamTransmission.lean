import Iocom.GazerbeamMessages

/-!
# Gazerbeam transmissions

Messages which are sent one after the other, and what the receiver makes of the bits
of all of them.
-/

namespace Iocom

open BitGroups

/-! ## Runs of the receiver -/

/-- A received bit; `read` is the buffer size with which the application calls
`gazerbeam_get_message` before the next bit, if it does. -/
structure GazerbeamTick where
  bit : GazerbeamBit
  read : Option ℕ

/-- What a received bit does: whether a message begins with it, and the message and the
size with which `OSAL_COMPLETED` is returned. -/
structure GazerbeamReport where
  begins : Bool
  message : Option (List UInt8 × ℕ)

def GazerbeamReport.quiet : GazerbeamReport := ⟨false, none⟩

namespace GazerbeamReceiver

def readMessage (gb : GazerbeamReceiver) : Option ℕ → GazerbeamReceiver
  | none => gb
  | some bufSz => (gb.getMessage bufSz false).2

/-- What is reported for a bit which leads from `gb` to `gb'`. -/
def report (gb : GazerbeamReceiver) (bit : GazerbeamBit) (status : GazerbeamStatus)
    (gb' : GazerbeamReceiver) : GazerbeamReport where
  begins := decide (bit = .one ∧ gb.nZeros = leadingZeroes)
  message :=
    if status = .completed then
      some (gb'.finshedMessage.take gb'.finshedMessageSz, gb'.finshedMessageSz)
    else none

variable (checksum : List UInt8 → UInt16)

def run (gb : GazerbeamReceiver) :
    List GazerbeamTick → Option (List GazerbeamReport × GazerbeamReceiver)
  | [] => some ([], gb)
  | tick :: ticks => do
      let (status, gb') ← gb.decodeMessage checksum tick.bit
      let (reports, last) ← (gb'.readMessage tick.read).run ticks
      some (gb.report tick.bit status gb' :: reports, last)

end GazerbeamReceiver

/-! ## What is sent -/

structure GazerbeamMessage where
  chars : List UInt8
  nonempty : chars ≠ []
  short : chars.length ≤ gazerbeamMaxMsgSz - 1
  codes : ∀ c ∈ chars, 1 ≤ c.toNat ∧ c.toNat ≤ 127

def checksumChars (crc : UInt16) : List UInt8 :=
  [UInt8.ofNat (crc.toNat % 64 + 1), UInt8.ofNat (crc.toNat / 64 % 64 + 1),
    UInt8.ofNat (crc.toNat / 4096 % 64 + 1)]

namespace GazerbeamMessage

variable (checksum : List UInt8 → UInt16) (m : GazerbeamMessage)

/-- The characters on the line: the checksum is counted with zeros in its own place. -/
def line : List UInt8 := checksumChars (checksum (0 :: 0 :: 0 :: m.chars)) ++ m.chars

def bits : List Bool := groupBits 7 ((m.line checksum).map UInt8.toNat)

def lastZeros : ℕ := zerosAfter 0 (m.bits checksum)

end GazerbeamMessage

/-- A message with the zeros before it, and when the application reads. -/
structure GazerbeamFrame (checksum : List UInt8 → UInt16) where
  message : GazerbeamMessage
  zeros : ℕ
  enough : leadingZeroes ≤ zeros
  ticks : List GazerbeamTick
  sent : ticks.map GazerbeamTick.bit =
    (List.replicate zeros false ++ true :: message.bits checksum).map GazerbeamBit.ofBool

namespace GazerbeamFrame

variable {checksum : List UInt8 → UInt16}

def begins (f : GazerbeamFrame checksum) : List Bool :=
  List.replicate f.zeros false ++ true :: List.replicate (f.message.bits checksum).length false

def allTicks (frames : List (GazerbeamFrame checksum)) : List GazerbeamTick :=
  frames.flatMap GazerbeamFrame.ticks

def waiting (checksum : List UInt8 → UInt16) (m : GazerbeamMessage) : ℕ :=
  leadingZeroes - 1 - m.lastZeros checksum

/-- After the message `m` each message is read before the next one ends: between the
bit with which the receiver gets the end of the one and that of the other. -/
def ReadInTime (closing : List GazerbeamTick) :
    GazerbeamMessage → List (GazerbeamFrame checksum) → Prop
  | _, [] => True
  | m, f :: frames =>
      (∃ tick ∈ f.ticks.drop (waiting checksum m) ++
        (allTicks frames ++ closing).take (waiting checksum f.message), tick.read.isSome) ∧
      ReadInTime closing f.message frames

end GazerbeamFrame

/-- Messages one after the other, the last followed by the zeros of the next one. -/
structure GazerbeamTransmission (checksum : List UInt8 → UInt16) where
  frames : List (GazerbeamFrame checksum)
  closingZeros : ℕ
  enough : leadingZeroes ≤ closingZeros
  closing : List GazerbeamTick
  closed : closing.map GazerbeamTick.bit = List.replicate closingZeros .zero
  readInTime : ∀ f rest, frames = f :: rest → GazerbeamFrame.ReadInTime closing f.message rest

namespace GazerbeamTransmission

variable {checksum : List UInt8 → UInt16} (t : GazerbeamTransmission checksum)

def ticks : List GazerbeamTick := GazerbeamFrame.allTicks t.frames ++ t.closing

def begins : List Bool :=
  t.frames.flatMap GazerbeamFrame.begins ++ List.replicate t.closingZeros false

/-- Each message is received once, with its characters and its length, in the order of
sending, and messages begin nowhere else. -/
def Decoded : Prop :=
  ∃ reports last, initializeGazerbeamReceiver.run checksum t.ticks = some (reports, last) ∧
    reports.filterMap GazerbeamReport.message =
      t.frames.map (fun f => (f.message.chars, f.message.chars.length)) ∧
    reports.map GazerbeamReport.begins = t.begins

end GazerbeamTransmission

/-! ## Runs of bits -/

namespace GazerbeamReceiver

variable {checksum : List UInt8 → UInt16} {gb gb' : GazerbeamReceiver}

theorem run_nil : gb.run checksum [] = some ([], gb) := rfl

theorem run_cons {tick : GazerbeamTick} {ticks : List GazerbeamTick} {s : GazerbeamStatus}
    {reports : List GazerbeamReport} {last : GazerbeamReceiver}
    (hstep : gb.decodeMessage checksum tick.bit = some (s, gb'))
    (hrest : (gb'.readMessage tick.read).run checksum ticks = some (reports, last)) :
    gb.run checksum (tick :: ticks) = some (gb.report tick.bit s gb' :: reports, last) := by
  change (gb.decodeMessage checksum tick.bit).bind _ = _
  rw [hstep, Option.bind_some]
  change ((gb'.readMessage tick.read).run checksum ticks).bind _ = _
  rw [hrest]
  rfl

theorem run_append {a b : List GazerbeamTick} {first rest : List GazerbeamReport}
    {last : GazerbeamReceiver} (ha : gb.run checksum a = some (first, gb'))
    (hb : gb'.run checksum b = some (rest, last)) :
    gb.run checksum (a ++ b) = some (first ++ rest, last) := by
  induction a generalizing gb first with
  | nil =>
      cases ha
      exact hb
  | cons tick a ih =>
      change (gb.decodeMessage checksum tick.bit).bind _ = _ at ha
      obtain ⟨⟨s, next⟩, hstep, ha⟩ := Option.bind_eq_some_iff.mp ha
      obtain ⟨⟨reports, final⟩, hrun, ha⟩ := Option.bind_eq_some_iff.mp ha
      cases ha
      exact run_cons hstep (ih hrun)

/-- A bit and what the application reads after it keep the receiver in its bounds. -/
theorem Bounded.readMessage (h : gb.Bounded) (read : Option ℕ) :
    (gb.readMessage read).Bounded := by
  cases read with
  | none => exact h
  | some bufSz => exact ⟨h.msgbuf, h.finshed, h.pos, h.zeros⟩

variable (checksum) in
/-- Whatever is received, nothing is accessed outside the buffers. -/
theorem Bounded.run (h : gb.Bounded) (ticks : List GazerbeamTick) :
    ∃ reports last, gb.run checksum ticks = some (reports, last) ∧ last.Bounded := by
  induction ticks generalizing gb with
  | nil => exact ⟨[], gb, rfl, h⟩
  | cons tick ticks ih =>
      obtain ⟨s, gb', hstep, hbounded⟩ :=
        decodeMessage_bounded checksum h tick.bit
      obtain ⟨reports, last, hrun, hlast⟩ := ih (hbounded.readMessage tick.read)
      exact ⟨_, last, run_cons hstep hrun, hlast⟩

def sizeAfter (size : ℕ) (ticks : List GazerbeamTick) : ℕ :=
  if ticks.any fun tick => tick.read.isSome then 0 else size

@[simp] theorem sizeAfter_nil {size : ℕ} : sizeAfter size [] = size := rfl

theorem sizeAfter_append {size : ℕ} {a b : List GazerbeamTick} :
    sizeAfter size (a ++ b) = sizeAfter (sizeAfter size a) b := by
  simp only [sizeAfter, List.any_append, Bool.or_eq_true]
  split_ifs <;> simp_all

theorem sizeAfter_of_read {size : ℕ} {ticks : List GazerbeamTick}
    (h : ∃ tick ∈ ticks, tick.read.isSome) : sizeAfter size ticks = 0 := by
  obtain ⟨tick, hmem, hread⟩ := h
  exact if_pos (List.any_eq_true.mpr ⟨tick, hmem, hread⟩)

@[simp] theorem sizeAfter_zero {ticks : List GazerbeamTick} : sizeAfter 0 ticks = 0 := by
  simp [sizeAfter]

variable {phase : Option (List Bool)} {n size : ℕ}

theorem At.readMessage (h : gb.At phase n size) (tick : GazerbeamTick) :
    (gb.readMessage tick.read).At phase n (sizeAfter size [tick]) := by
  cases hread : tick.read with
  | none => simpa [GazerbeamReceiver.readMessage, sizeAfter, hread] using h
  | some bufSz =>
      refine ⟨h.bounded.readMessage _, ?_, h.zeros, ?_⟩
      · cases phase with
        | none => exact h.phase
        | some bits => exact ⟨h.phase.short, h.phase.pos, h.phase.bit, h.phase.cell⟩
      · simp [GazerbeamReceiver.readMessage, getMessage, sizeAfter, hread]

theorem report_quiet {bit : GazerbeamBit} {s : GazerbeamStatus} (hs : s ≠ .completed)
    (hbit : bit = .one → gb.nZeros ≠ leadingZeroes) :
    gb.report bit s gb' = .quiet := by
  have hbegins : ¬(bit = .one ∧ gb.nZeros = leadingZeroes) := fun h => hbit h.1 h.2
  simp [report, hs, hbegins, GazerbeamReport.quiet]

variable (checksum) in
/-- Bits of which no 14 zeros follow each other, in a message or before any. -/
theorem At.run_quiet {ticks : List GazerbeamTick} {bits : List Bool} (h : gb.At phase n size)
    (hticks : ticks.map GazerbeamTick.bit = bits.map GazerbeamBit.ofBool) (hn : n < 14)
    (hbelow : ZerosBelow 14 n bits) :
    ∃ gb', gb.run checksum ticks = some (List.replicate bits.length .quiet, gb') ∧
      gb'.At (bits.foldl phaseStep phase) (zerosAfter n bits) (sizeAfter size ticks) := by
  induction bits generalizing gb phase n size ticks with
  | nil =>
      obtain rfl : ticks = [] := by simpa using hticks
      exact ⟨gb, rfl, h⟩
  | cons b bits ih =>
      obtain ⟨tick, ticks, rfl⟩ := List.exists_cons_of_ne_nil
        (l := ticks) (by rintro rfl; simp at hticks)
      obtain ⟨hbit, hticks⟩ : tick.bit = .ofBool b ∧
          ticks.map GazerbeamTick.bit = bits.map GazerbeamBit.ofBool := by simpa using hticks
      obtain ⟨s, gb', hstep, hstatus, hat⟩ := h.quiet checksum hn hbelow.1
      obtain ⟨last, hrun, hlast⟩ := ih (hat.readMessage tick) hticks hbelow.1 hbelow.2
      have hquiet : gb.report tick.bit s gb' = .quiet :=
        report_quiet hstatus fun _ => by
          rw [h.zeros]
          exact Nat.ne_of_lt hn
      refine ⟨last, ?_, ?_⟩
      · rw [run_cons (by rw [hbit]; exact hstep) hrun, hquiet]
        rfl
      · rw [← sizeAfter_append] at hlast
        exact hlast

variable (checksum) in
theorem At.run_idle {ticks : List GazerbeamTick} {k : ℕ} (h : gb.At none n size)
    (hticks : ticks.map GazerbeamTick.bit = List.replicate k .zero) :
    ∃ gb', gb.run checksum ticks = some (List.replicate k .quiet, gb') ∧
      gb'.At none (min 14 (n + k)) (sizeAfter size ticks) := by
  induction k generalizing gb n size ticks with
  | zero =>
      obtain rfl : ticks = [] := by simpa using hticks
      have hmin : min 14 (n + 0) = n := by
        have hle := h.bounded.zeros
        rw [h.zeros] at hle
        omega
      exact ⟨gb, rfl, by rw [hmin]; exact h⟩
  | succ k ih =>
      obtain ⟨tick, ticks, rfl⟩ := List.exists_cons_of_ne_nil
        (l := ticks) (by rintro rfl; simp [List.replicate_succ] at hticks)
      obtain ⟨hbit, hticks⟩ : tick.bit = .zero ∧
          ticks.map GazerbeamTick.bit = List.replicate k .zero := by
        simpa [List.replicate_succ] using hticks
      obtain ⟨s, gb', hstep, hstatus, hat⟩ := h.idle checksum
      obtain ⟨last, hrun, hlast⟩ := ih (hat.readMessage tick) hticks
      have hquiet : gb.report tick.bit s gb' = .quiet :=
        report_quiet hstatus fun hone => by simp [hbit] at hone
      have hmin : min 14 (min 14 (n + 1) + k) = min 14 (n + (k + 1)) := by omega
      refine ⟨last, ?_, ?_⟩
      · rw [run_cons (by rw [hbit]; exact hstep) hrun, hquiet]
        rfl
      · rw [← sizeAfter_append, hmin] at hlast
        exact hlast

end GazerbeamReceiver

/-! ## The bits of a message -/

theorem receivedCrc_checksumChars (crc : UInt16) :
    receivedCrc (UInt8.ofNat (crc.toNat % 64 + 1)) (UInt8.ofNat (crc.toNat / 64 % 64 + 1))
      (UInt8.ofNat (crc.toNat / 4096 % 64 + 1)) = crc := by
  have hcrc := crc.toNat_lt
  have hpart : ∀ n, n < 64 → (UInt8.ofNat (n + 1)).toUInt16 - 1 = UInt16.ofNat n := by
    intro n hn
    apply UInt16.toNat_inj.mp
    simp only [UInt16.toNat_sub, UInt8.toNat_toUInt16, UInt8.toNat_ofNat', UInt16.toNat_ofNat',
      UInt16.toNat_one]
    omega
  have hjoin : ∀ a b : ℕ, a < 1024 → b < 64 →
      UInt16.ofNat a <<< 6 ||| UInt16.ofNat b = UInt16.ofNat (a * 64 + b) := by
    intro a b ha hb
    have hor : a <<< 6 ||| b = a * 64 + b := by
      rw [← Nat.shiftLeft_add_eq_or_of_lt (show b < 2 ^ 6 by omega), Nat.shiftLeft_eq]
    apply UInt16.toNat_inj.mp
    simp only [UInt16.toNat_or, UInt16.toNat_shiftLeft, UInt16.toNat_ofNat']
    rw [Nat.mod_eq_of_lt (show a < 2 ^ 16 by omega), Nat.mod_eq_of_lt (show b < 2 ^ 16 by omega),
      Nat.mod_eq_of_lt (show a * 64 + b < 2 ^ 16 by omega), ← hor]
    have hshift : a <<< 6 < 2 ^ 16 := by
      rw [Nat.shiftLeft_eq]
      omega
    exact congrArg (· ||| b) (Nat.mod_eq_of_lt hshift)
  rw [receivedCrc, hpart _ (Nat.mod_lt _ (by omega)), hpart _ (Nat.mod_lt _ (by omega)),
    hpart _ (Nat.mod_lt _ (by omega)), hjoin _ _ (by omega) (by omega),
    hjoin _ _ (by omega) (by omega)]
  apply UInt16.toNat_inj.mp
  rw [UInt16.toNat_ofNat']
  omega

theorem lowBits_zeros : ∀ c < 128, 1 ≤ c →
    ZerosBelow 14 6 (lowBits 7 c) ∧ zerosAfter 6 (lowBits 7 c) ≤ 6 := by
  decide

namespace GazerbeamMessage

variable {checksum : List UInt8 → UInt16} (m : GazerbeamMessage)

theorem length_line : (m.line checksum).length = m.chars.length + 3 := by
  simp [line, checksumChars]

variable (checksum) in
theorem line_codes : ∀ c ∈ m.line checksum, 1 ≤ c.toNat ∧ c.toNat < 128 := by
  have hpart : ∀ n, 1 ≤ (UInt8.ofNat (n % 64 + 1)).toNat ∧
      (UInt8.ofNat (n % 64 + 1)).toNat < 128 := by
    intro n
    rw [UInt8.toNat_ofNat']
    omega
  intro c hc
  rcases List.mem_append.mp hc with hsum | hchar
  · simp only [checksumChars, List.mem_cons, List.not_mem_nil, or_false] at hsum
    rcases hsum with rfl | rfl | rfl
    · exact hpart _
    · exact hpart _
    · exact hpart _
  · have hcode := m.codes c hchar
    omega

variable (checksum) in
theorem length_bits : (m.bits checksum).length = 7 * (m.chars.length + 3) := by
  simp [bits, length_line]

variable (checksum) in
theorem bits_zeros : ZerosBelow 14 0 (m.bits checksum) ∧ m.lastZeros checksum ≤ 6 := by
  apply groupBits_zeros (n := 6)
  · intro c hc
    obtain ⟨d, hd, rfl⟩ := List.mem_map.mp hc
    have hcode := m.line_codes checksum d hd
    exact lowBits_zeros _ hcode.2 hcode.1
  · omega

/-- What the receiver has received when the last bit of the message has arrived. -/
def received (checksum : List UInt8 → UInt16) : Option (List Bool) :=
  (m.bits checksum).foldl GazerbeamReceiver.phaseStep (some [])

def Fits : Prop := m.chars.length ≤ 125

instance : Decidable m.Fits := inferInstanceAs (Decidable (_ ≤ _))

def delivered : Option (List UInt8 × ℕ) :=
  if m.Fits then some (m.chars, m.chars.length) else none

end GazerbeamMessage

namespace GazerbeamReceiver

theorem foldl_phaseStep_none (bits : List Bool) : bits.foldl phaseStep none = none := by
  induction bits with
  | nil => rfl
  | cons b bits ih => exact ih

theorem foldl_phaseStep (pre bits : List Bool) (hpre : pre.length < 910) :
    bits.foldl phaseStep (some pre) =
      if pre.length + bits.length < 910 then some (pre ++ bits) else none := by
  induction bits generalizing pre with
  | nil => simp [hpre]
  | cons b bits ih =>
      simp only [List.foldl_cons, phaseStep]
      split_ifs with hstep hall hall
      · rw [ih _ (by simpa using hstep), if_pos (by simp; simp at hall; omega)]
        simp
      · rw [ih _ (by simpa using hstep), if_neg (by simp; simp at hall; omega)]
      · simp at hall
        omega
      · exact foldl_phaseStep_none bits

variable {checksum : List UInt8 → UInt16} {gb : GazerbeamReceiver} {m : GazerbeamMessage}
variable {size : ℕ}

/-- The bits of the message with the zeros which precede the one that ends it. -/
theorem received_zeros (hfits : m.Fits) :
    (List.replicate (GazerbeamFrame.waiting checksum m) false).foldl phaseStep
        (m.received checksum) =
      some (m.bits checksum ++ List.replicate (GazerbeamFrame.waiting checksum m) false) := by
  have hlength := m.length_bits checksum
  have hshort : m.chars.length ≤ 125 := hfits
  have hwait : GazerbeamFrame.waiting checksum m ≤ 13 := Nat.sub_le _ _
  rw [GazerbeamMessage.received, foldl_phaseStep [] _ (by simp), if_pos (by simp; omega),
    List.nil_append, foldl_phaseStep _ _ (by omega), if_pos (by simp; omega)]

theorem given_up (hfits : ¬m.Fits) :
    (List.replicate (GazerbeamFrame.waiting checksum m) false).foldl phaseStep
      (m.received checksum) = none := by
  have hlength := m.length_bits checksum
  have hlong : ¬m.chars.length ≤ 125 := hfits
  have hzeros := (m.bits_zeros checksum).2
  have hwait : GazerbeamFrame.waiting checksum m = 13 - m.lastZeros checksum := rfl
  rw [GazerbeamMessage.received, foldl_phaseStep [] _ (by simp)]
  split_ifs with hin
  · simp only [List.length_nil, Nat.zero_add] at hin
    rw [List.nil_append, foldl_phaseStep _ _ hin, if_neg (by simp; omega)]
  · exact foldl_phaseStep_none _

/-! ## Messages one after the other -/

theorem At.run_end {tick : GazerbeamTick} (h : gb.At
      ((List.replicate (GazerbeamFrame.waiting checksum m) false).foldl phaseStep
        (m.received checksum)) 13 0) (htick : tick.bit = .zero) :
    ∃ gb' size, gb.run checksum [tick] = some ([⟨false, m.delivered⟩], gb') ∧
      gb'.At none 14 size ∧ (tick.read.isSome → size = 0) := by
  by_cases hfits : m.Fits
  · rw [received_zeros hfits] at h
    obtain ⟨init, last, hchars⟩ : ∃ init last, m.chars = init ++ [last] :=
      ⟨_, _, (List.dropLast_append_getLast m.nonempty).symm⟩
    have hlast : last ≠ 0 := by
      rintro rfl
      have hcode := m.codes 0 (by simp [hchars])
      simp at hcode
    have hcodes := fun c hc => (m.line_codes checksum c hc).2
    simp only [GazerbeamMessage.bits, GazerbeamMessage.line, checksumChars, hchars,
      List.cons_append, List.nil_append] at h hcodes
    obtain ⟨gb', hstep, hat, hmessage⟩ :=
      h.complete hcodes hlast (receivedCrc_checksumChars _)
    refine ⟨gb'.readMessage tick.read, _, ?_, hat.readMessage tick, fun hread => ?_⟩
    · rw [run_cons (by rw [htick]; exact hstep) run_nil]
      have hsize := hat.size
      rw [hsize] at hmessage
      simp [report, htick, GazerbeamMessage.delivered, hfits, hsize, hchars]
      simpa using hmessage
    · exact sizeAfter_of_read ⟨tick, by simp, hread⟩
  · rw [given_up hfits] at h
    obtain ⟨s, gb', hstep, hstatus, hat⟩ := h.idle checksum
    refine ⟨gb'.readMessage tick.read, _, ?_, hat.readMessage tick, fun _ => sizeAfter_zero⟩
    rw [run_cons (by rw [htick]; exact hstep) run_nil]
    simp [report, htick, GazerbeamMessage.delivered, hfits, hstatus]

/-- The zeros after a message: the message is delivered with the one which ends it. -/
theorem At.run_zeros {ticks : List GazerbeamTick} {k : ℕ}
    (h : gb.At (m.received checksum) (m.lastZeros checksum) size) (hk : leadingZeroes ≤ k)
    (hticks : ticks.map GazerbeamTick.bit = List.replicate k .zero)
    (hread : size = 0 ∨
      ∃ tick ∈ ticks.take (GazerbeamFrame.waiting checksum m), tick.read.isSome) :
    ∃ reports gb' size', gb.run checksum ticks = some (reports, gb') ∧
      reports.filterMap GazerbeamReport.message = m.delivered.toList ∧
      reports.map GazerbeamReport.begins = List.replicate k false ∧
      gb'.At none 14 size' ∧
      ((∃ tick ∈ ticks.drop (GazerbeamFrame.waiting checksum m), tick.read.isSome) →
        size' = 0) := by
  set w := GazerbeamFrame.waiting checksum m with hw
  have hlast := (m.bits_zeros checksum).2
  have hwait : w = 13 - m.lastZeros checksum := rfl
  have hleading : leadingZeroes = 14 := rfl
  have hlen : ticks.length = k := by
    have hlength := congrArg List.length hticks
    simpa using hlength
  have hin : w < ticks.length := by omega
  have hbits : (ticks.take w).map GazerbeamTick.bit =
      (List.replicate w false).map GazerbeamBit.ofBool := by
    rw [List.map_take, hticks, List.take_replicate, Nat.min_eq_left (by omega)]
    simp [GazerbeamBit.ofBool]
  have hend : ticks[w].bit = .zero := by
    have hget := congrArg (fun bits => bits[w]?) hticks
    simpa [List.getElem?_replicate, hin, show w < k by omega] using hget
  have hrest : (ticks.drop (w + 1)).map GazerbeamTick.bit =
      List.replicate (k - (w + 1)) .zero := by
    rw [List.map_drop, hticks, List.drop_replicate]
  have hsplit : ticks = ticks.take w ++ ([ticks[w]] ++ ticks.drop (w + 1)) := by
    rw [List.singleton_append, ← List.drop_eq_getElem_cons hin, List.take_append_drop]
  obtain ⟨gb1, hrun1, hat1⟩ := h.run_quiet checksum hbits (by omega)
    (zerosBelow_replicate (by omega))
  have hsize : sizeAfter size (ticks.take w) = 0 := by
    rcases hread with rfl | hread
    · exact sizeAfter_zero
    · exact sizeAfter_of_read hread
  rw [hsize, zerosAfter_replicate, show m.lastZeros checksum + w = 13 by omega] at hat1
  obtain ⟨gb2, size2, hrun2, hat2, hread2⟩ := hat1.run_end hend
  obtain ⟨gb3, hrun3, hat3⟩ := hat2.run_idle checksum hrest
  have hrun := run_append hrun1 (run_append hrun2 hrun3)
  rw [← hsplit] at hrun
  refine ⟨_, gb3, sizeAfter size2 (ticks.drop (w + 1)), hrun, ?_, ?_, ?_, ?_⟩
  · cases m.delivered <;> simp [GazerbeamReport.quiet]
  · simp [GazerbeamReport.quiet, ← List.replicate_succ]
    omega
  · rwa [Nat.min_eq_left (by omega)] at hat3
  · rintro ⟨tick, hmem, htick⟩
    rw [List.drop_eq_getElem_cons hin] at hmem
    rcases List.mem_cons.mp hmem with rfl | hmem
    · rw [hread2 htick]
      exact sizeAfter_zero
    · exact sizeAfter_of_read ⟨tick, hmem, htick⟩

variable (checksum) in
theorem At.run_message {ticks : List GazerbeamTick} (h : gb.At none 14 size)
    (hticks : ticks.map GazerbeamTick.bit =
      (true :: m.bits checksum).map GazerbeamBit.ofBool) :
    ∃ gb', gb.run checksum ticks =
        some (⟨true, none⟩ :: List.replicate (m.bits checksum).length .quiet, gb') ∧
      gb'.At (m.received checksum) (m.lastZeros checksum) (sizeAfter size ticks) := by
  obtain ⟨tick, ticks, rfl⟩ := List.exists_cons_of_ne_nil
    (l := ticks) (by rintro rfl; simp at hticks)
  obtain ⟨hbit, hticks⟩ : tick.bit = .one ∧
      ticks.map GazerbeamTick.bit = (m.bits checksum).map GazerbeamBit.ofBool := by
    simpa [GazerbeamBit.ofBool] using hticks
  obtain ⟨s, gb1, hstep, hstatus, hat1⟩ := h.begin checksum
  obtain ⟨gb2, hrun, hat2⟩ := (hat1.readMessage tick).run_quiet checksum hticks
    (by omega) (m.bits_zeros checksum).1
  have hfull : gb.nZeros = leadingZeroes := h.zeros
  refine ⟨gb2, ?_, ?_⟩
  · rw [run_cons (by rw [hbit]; exact hstep) hrun]
    simp [report, hbit, hfull, hstatus]
  · rw [← sizeAfter_append] at hat2
    exact hat2

/-- What is received after the message `m`, to the end of the transmission. -/
theorem At.run_frames {frames : List (GazerbeamFrame checksum)} {closing : List GazerbeamTick}
    {k : ℕ} (h : gb.At (m.received checksum) (m.lastZeros checksum) size)
    (hk : leadingZeroes ≤ k)
    (hclosing : closing.map GazerbeamTick.bit = List.replicate k .zero)
    (hread : size = 0 ∨ ∃ tick ∈ (GazerbeamFrame.allTicks frames ++ closing).take
      (GazerbeamFrame.waiting checksum m), tick.read.isSome)
    (hin : GazerbeamFrame.ReadInTime closing m frames) :
    ∃ reports last,
      gb.run checksum (GazerbeamFrame.allTicks frames ++ closing) = some (reports, last) ∧
      reports.filterMap GazerbeamReport.message =
        (m :: frames.map GazerbeamFrame.message).filterMap GazerbeamMessage.delivered ∧
      reports.map GazerbeamReport.begins =
        frames.flatMap GazerbeamFrame.begins ++ List.replicate k false := by
  induction frames generalizing gb m size with
  | nil =>
      obtain ⟨reports, last, _, hrun, hmessages, hbegins, -, -⟩ :=
        h.run_zeros hk hclosing hread
      refine ⟨reports, last, hrun, ?_, hbegins⟩
      rw [hmessages]
      cases hm : m.delivered <;> simp [hm]
  | cons f frames ih =>
      set rest := GazerbeamFrame.allTicks frames ++ closing with hrest
      set zeros := f.ticks.take f.zeros with hzeros
      set sent := f.ticks.drop f.zeros with hsent
      have hf : f.ticks = zeros ++ sent := (List.take_append_drop _ _).symm
      have hall : GazerbeamFrame.allTicks (f :: frames) ++ closing = zeros ++ (sent ++ rest) := by
        rw [← List.append_assoc, ← hf, hrest]
        simp [GazerbeamFrame.allTicks]
      have hzeroBits : zeros.map GazerbeamTick.bit = List.replicate f.zeros .zero := by
        rw [hzeros, List.map_take, f.sent]
        simp [GazerbeamBit.ofBool]
      have hsentBits : sent.map GazerbeamTick.bit =
          (true :: f.message.bits checksum).map GazerbeamBit.ofBool := by
        rw [hsent, List.map_drop, f.sent]
        simp
      have hlen : zeros.length = f.zeros := by
        have hlength := congrArg List.length hzeroBits
        simpa using hlength
      have henough := f.enough
      have hwait : GazerbeamFrame.waiting checksum m ≤ zeros.length := by
        rw [hlen]
        exact (Nat.sub_le _ _).trans ((Nat.sub_le _ _).trans henough)
      rw [hall, List.take_append_of_le_length hwait] at hread
      obtain ⟨reports1, gb1, size1, hrun1, hmessages1, hbegins1, hat1, hread1⟩ :=
        h.run_zeros henough hzeroBits hread
      obtain ⟨gb2, hrun2, hat2⟩ := hat1.run_message checksum hsentBits
      have hnext : sizeAfter size1 sent = 0 ∨ ∃ tick ∈ rest.take
          (GazerbeamFrame.waiting checksum f.message), tick.read.isSome := by
        obtain ⟨tick, hmem, htick⟩ := hin.1
        rw [hf, List.drop_append_of_le_length hwait] at hmem
        rcases List.mem_append.mp hmem with hmem | hmem
        · rcases List.mem_append.mp hmem with hmem | hmem
          · rw [hread1 ⟨tick, hmem, htick⟩]
            exact .inl sizeAfter_zero
          · exact .inl (sizeAfter_of_read ⟨tick, hmem, htick⟩)
        · exact .inr ⟨tick, hmem, htick⟩
      obtain ⟨reports3, last, hrun3, hmessages3, hbegins3⟩ := ih hat2 hnext hin.2
      refine ⟨_, last, by rw [hall]; exact run_append hrun1 (run_append hrun2 hrun3), ?_, ?_⟩
      · rw [List.filterMap_append, hmessages1, List.filterMap_append, hmessages3]
        cases hm : m.delivered <;> simp [hm, GazerbeamReport.quiet]
      · rw [List.map_append, hbegins1, List.map_append, hbegins3]
        simp [GazerbeamFrame.begins, GazerbeamReport.quiet]

/-- All messages which fit are delivered, and messages begin where they are sent. -/
theorem run_transmission (t : GazerbeamTransmission checksum) :
    ∃ reports last,
      initializeGazerbeamReceiver.run checksum t.ticks = some (reports, last) ∧
      reports.filterMap GazerbeamReport.message =
        (t.frames.map GazerbeamFrame.message).filterMap GazerbeamMessage.delivered ∧
      reports.map GazerbeamReport.begins = t.begins := by
  have hstart : initializeGazerbeamReceiver.At none 0 0 :=
    ⟨initialize_bounded, rfl, rfl, rfl⟩
  obtain ⟨frames, k, hk, closing, hclosing, hread⟩ := t
  cases frames with
  | nil =>
      obtain ⟨last, hrun, -⟩ := hstart.run_idle checksum hclosing
      refine ⟨_, last, hrun, ?_, ?_⟩
      · simp [GazerbeamReport.quiet]
      · simp [GazerbeamReport.quiet, GazerbeamTransmission.begins]
  | cons f frames =>
      have hzeros : (f.ticks.take f.zeros).map GazerbeamTick.bit =
          List.replicate f.zeros .zero := by
        rw [List.map_take, f.sent]
        simp [GazerbeamBit.ofBool]
      have hsent : (f.ticks.drop f.zeros).map GazerbeamTick.bit =
          (true :: f.message.bits checksum).map GazerbeamBit.ofBool := by
        rw [List.map_drop, f.sent]
        simp
      have henough : 14 ≤ 0 + f.zeros := by
        rw [Nat.zero_add]
        exact f.enough
      obtain ⟨gb1, hrun1, hat1⟩ := hstart.run_idle checksum hzeros
      rw [Nat.min_eq_left henough, sizeAfter_zero] at hat1
      obtain ⟨gb2, hrun2, hat2⟩ := hat1.run_message checksum hsent
      rw [sizeAfter_zero] at hat2
      obtain ⟨reports, last, hrun, hmessages, hbegins⟩ :=
        hat2.run_frames hk hclosing (.inl rfl) (hread f frames rfl)
      have hticks : GazerbeamFrame.allTicks (f :: frames) ++ closing = f.ticks.take f.zeros ++
          (f.ticks.drop f.zeros ++ (GazerbeamFrame.allTicks frames ++ closing)) := by
        rw [← List.append_assoc, List.take_append_drop]
        simp [GazerbeamFrame.allTicks]
      have hall := run_append hrun1 (run_append hrun2 hrun)
      rw [← hticks] at hall
      refine ⟨_, last, hall, ?_, ?_⟩
      · simp [hmessages, GazerbeamReport.quiet]
      · simp [hbegins, GazerbeamReport.quiet, GazerbeamTransmission.begins, GazerbeamFrame.begins]

end GazerbeamReceiver

/-! ## What is decoded -/

theorem GazerbeamMessage.filterMap_delivered (messages : List GazerbeamMessage) :
    messages.filterMap GazerbeamMessage.delivered =
      (messages.filter fun m => decide m.Fits).map fun m => (m.chars, m.chars.length) := by
  induction messages with
  | nil => rfl
  | cons m messages ih => by_cases h : m.Fits <;> simp [GazerbeamMessage.delivered, h, ih]

/-- A transmission is decoded when no message is longer than 125 characters. -/
theorem GazerbeamTransmission.decoded_iff {checksum : List UInt8 → UInt16}
    (t : GazerbeamTransmission checksum) : t.Decoded ↔ ∀ f ∈ t.frames, f.message.Fits := by
  obtain ⟨reports, last, hrun, hmessages, hbegins⟩ :=
    GazerbeamReceiver.run_transmission t
  have hfits : (∀ f ∈ t.frames, f.message.Fits) ↔
      ∀ m ∈ t.frames.map GazerbeamFrame.message, m.Fits := by simp
  rw [GazerbeamMessage.filterMap_delivered] at hmessages
  rw [hfits]
  constructor
  · rintro ⟨reports', last', hrun', hdecoded, -⟩
    rw [hrun] at hrun'
    cases hrun'
    rw [hmessages] at hdecoded
    have hlength := congrArg List.length hdecoded
    simp only [List.length_map] at hlength
    have hall := List.length_filter_eq_length_iff.mp
      (hlength.trans (List.length_map GazerbeamFrame.message).symm)
    exact fun m hm => of_decide_eq_true (hall m hm)
  · intro hall
    refine ⟨reports, last, hrun, ?_, hbegins⟩
    rw [hmessages, List.filter_eq_self.mpr fun m hm => decide_eq_true (hall m hm), List.map_map]
    rfl

/-- No bits make the receiver leave its buffers.
A transmission is decoded, each message once and as it was sent, exactly when no message
is longer than 125 characters: of a longer one the receiver counts the character of zeros
after it as one too many. -/
theorem gazerbeam_messages_decoded (checksum : List UInt8 → UInt16) :
    (∀ ticks, ∃ reports last,
      initializeGazerbeamReceiver.run checksum ticks = some (reports, last)) ∧
    ∀ t : GazerbeamTransmission checksum,
      t.Decoded ↔ ∀ f ∈ t.frames, f.message.chars.length ≤ gazerbeamMaxMsgSz - 3 := by
  refine ⟨fun ticks => ?_, fun t => t.decoded_iff⟩
  obtain ⟨reports, last, hrun, -⟩ :=
    GazerbeamReceiver.initialize_bounded.run checksum ticks
  exact ⟨reports, last, hrun⟩

/-- 126 characters, which is one less than the maximum. -/
def longGazerbeamMessage : GazerbeamMessage where
  chars := List.replicate 126 0x61
  nonempty := by simp
  short := by simp [gazerbeamMaxMsgSz]
  codes := by simp

def longGazerbeamTransmission (checksum : List UInt8 → UInt16) :
    GazerbeamTransmission checksum where
  frames := [{
    message := longGazerbeamMessage
    zeros := 14
    enough := le_rfl
    ticks := (List.replicate 14 false ++ true :: longGazerbeamMessage.bits checksum).map
      fun b => ⟨.ofBool b, none⟩
    sent := by simp }]
  closingZeros := 14
  enough := le_rfl
  closing := List.replicate 14 ⟨.zero, none⟩
  closed := by simp
  readInTime := by
    intro f rest hframes
    cases hframes
    trivial

/-- A message of 126 characters is lost. -/
theorem gazerbeam_loses_long_message :
    ¬(longGazerbeamTransmission fun _ => 0).Decoded := by
  rw [GazerbeamTransmission.decoded_iff]
  intro hall
  have hfits : longGazerbeamMessage.Fits := hall _ List.mem_cons_self
  simp [GazerbeamMessage.Fits, longGazerbeamMessage] at hfits

end Iocom
