import Iocom.Bricks
import Iocom.Lib.FairRounds

/-!
# The transfer of bricks

The sending end counts in `pos` what it has written, and does not start again at zero
for the next brick: the bytes which stand before `pos` in the buffer are not sent.  The
first brick arrives; from the second on fewer bytes are written than stored.
-/

namespace Iocom

open Buffer BrickParams

variable {prm : BrickParams}

/-! ## What the sending end stores -/

namespace BrickParams

def Brick.header (brick : prm.Brick) (checksum : ℕ) : BrickHdr :=
  { brick.hdr with
    format := prm.formatCode brick.format
    compression := 0
    checksum := checksum
    width := brick.w
    height := brick.h
    bufSz := brick.data.length + 24
    tstamp := brick.time }

def Brick.bytes (brick : prm.Brick) (checksum : ℕ) : List UInt8 :=
  (brick.header checksum).bytes ++ brick.data

theorem Brick.bytes_length (brick : prm.Brick) (checksum : ℕ) :
    (brick.bytes checksum).length = brick.data.length + 24 := by
  unfold Brick.bytes
  rw [List.length_append, BrickHdr.bytes_length, Nat.add_comm]

theorem Brick.data_pos (brick : prm.Brick) : 1 ≤ brick.data.length := by
  rw [brick.data_length]
  exact Nat.mul_pos (Nat.mul_pos brick.w_pos brick.h_pos) (prm.bytesPerPix_pos brick.format)

theorem Brick.overwrite_checksum (brick : prm.Brick) (checksum checksum' : ℕ) :
    overwrite (brick.bytes checksum) 2 (brickHdrInt 2 checksum') = brick.bytes checksum' := rfl

theorem Brick.clearBrickChecksum_bytes (brick : prm.Brick) (checksum : ℕ) :
    clearBrickChecksum (brick.bytes checksum) = brick.bytes 0 :=
  brick.overwrite_checksum checksum 0

/-- The checksum is calculated while its own bytes are zero. -/
def Brick.sent (brick : prm.Brick) : List UInt8 :=
  brick.bytes (prm.checksum (brick.bytes 0))

theorem Brick.sent_length (brick : prm.Brick) :
    brick.sent.length = brick.data.length + 24 := brick.bytes_length _

theorem compressBrickRing_spec (b : BrickSender) (hlength : b.buf.length = prm.bufSz)
    (brick : prm.Brick) :
    (compressBrickRing b brick).buf.length = prm.bufSz ∧
      (compressBrickRing b brick).bufN = brick.sent.length ∧
      (compressBrickRing b brick).pos = b.pos ∧
      (compressBrickRing b brick).buf.take brick.sent.length = brick.sent ∧
      (compressBrickRing b brick).brick = brick.bytes 0 := by
  have hfits := brick.fits
  have hsent := brick.sent_length
  have hsz : (if prm.bufSz < brick.w * brick.h * prm.bytesPerPix (prm.formatCode brick.format) + 24
      then prm.bufSz - 24
      else brick.w * brick.h * prm.bytesPerPix (prm.formatCode brick.format)) =
        brick.data.length := by
    rw [← brick.data_length]
    exact if_neg (by omega)
  have hclear : (overwrite b.buf 0 (brick.bytes 0)).take (brick.data.length + 24) =
      brick.bytes 0 := by
    have htake := overwrite_take (show b.buf.take ([] : List UInt8).length = [] from rfl) (brick.bytes 0)
    rw [List.nil_append, brick.bytes_length] at htake
    exact htake
  have hbuf : (overwrite b.buf 0 (brick.bytes 0)).length = prm.bufSz := by
    rw [overwrite_length (by rw [brick.bytes_length]; omega), hlength]
  have hbrick : compressBrickRing b brick =
      { b with
        buf := overwrite (overwrite b.buf 0 (brick.bytes 0)) 2
          (brickHdrInt 2 (prm.checksum (brick.bytes 0)))
        bufN := brick.data.length + 24 } := by
    unfold compressBrickRing
    dsimp only
    rw [hsz, List.take_length]
    change (⟨overwrite (overwrite b.buf 0 (brick.bytes 0)) 2 (brickHdrInt 2 (prm.checksum
      ((overwrite b.buf 0 (brick.bytes 0)).take (brick.data.length + 24)))), _, _⟩ :
        BrickSender) = _
    rw [hclear]
  have hwrite : 2 + (brickHdrInt 2 (prm.checksum (brick.bytes 0))).length ≤
      brick.data.length + 24 := by
    rw [brickHdrInt_length]
    omega
  have htake : (overwrite (overwrite b.buf 0 (brick.bytes 0)) 2
      (brickHdrInt 2 (prm.checksum (brick.bytes 0)))).take (brick.data.length + 24) =
        brick.sent := by
    rw [take_overwrite hwrite (by omega), hclear]
    exact brick.overwrite_checksum 0 _
  rw [hbrick, hsent]
  refine ⟨?_, rfl, rfl, htake, ?_⟩
  · rw [overwrite_length (by omega)]
    exact hbuf
  · unfold BrickSender.brick
    rw [htake]
    exact brick.clearBrickChecksum_bytes _

/-! ## What the receiving end makes of it -/

/-- The header is read from a brick and from anything which begins like it. -/
theorem brickHdrOf_congr {buf bytes : List UInt8} {n : ℕ} (hn : 16 ≤ n)
    (htake : buf.take n = bytes) :
    (brickHdrOf buf).format = (brickHdrOf bytes).format ∧
      (brickHdrOf buf).checksum = (brickHdrOf bytes).checksum ∧
      (brickHdrOf buf).width = (brickHdrOf bytes).width ∧
      (brickHdrOf buf).height = (brickHdrOf bytes).height ∧
      (brickHdrOf buf).bufSz = (brickHdrOf bytes).bufSz ∧
      (brickHdrOf buf).allocSz = (brickHdrOf bytes).allocSz := by
  have hfield : ∀ i k : ℕ, i + k ≤ 16 → (bytes.drop i).take k = (buf.drop i).take k := by
    intro i k hik
    rw [← htake, List.drop_take, List.take_take, Nat.min_eq_left (by omega)]
  unfold brickHdrOf
  dsimp only
  rw [hfield 2 2 (by decide), hfield 4 2 (by decide), hfield 6 2 (by decide),
    hfield 8 4 (by decide), hfield 12 4 (by decide)]
  refine ⟨?_, rfl, rfl, rfl, rfl, rfl⟩
  rw [← htake]
  cases buf with
  | nil => rw [List.take_nil]
  | cons a buf => rw [List.take_cons (by omega)]; rfl

theorem Brick.brickHdrOf_bytes (brick : prm.Brick) {checksum : ℕ} (h : checksum < 0x10000) :
    (brickHdrOf (brick.bytes checksum)).format = prm.formatCode brick.format ∧
      (brickHdrOf (brick.bytes checksum)).checksum = checksum ∧
      (brickHdrOf (brick.bytes checksum)).width = brick.w ∧
      (brickHdrOf (brick.bytes checksum)).height = brick.h ∧
      (brickHdrOf (brick.bytes checksum)).bufSz = brick.data.length + 24 ∧
      (brickHdrOf (brick.bytes checksum)).allocSz = brick.hdr.allocSz := by
  have hw := brick.w_le
  have hh := brick.h_le
  have hfits := brick.fits
  have hbufSz := prm.bufSz_le
  have halloc := brick.allocSz_le
  have hbpp := prm.bytesPerPix_le brick.format
  unfold maxBrickAlloc at hbufSz
  unfold maxBrickWidth at hw halloc hbufSz
  unfold maxBrickHeight at hh halloc hbufSz
  have halloc' : brick.hdr.allocSz < 0x100 ^ 4 := by
    have hmul : 50000 * 3000 * prm.bytesPerPix (prm.formatCode brick.format) ≤ 600000000 := by
      omega
    omega
  refine ⟨rfl, ?_, ?_, ?_, ?_, ?_⟩
  · exact getBrickHdrInt_brickHdrInt (n := 2) h
  · exact getBrickHdrInt_brickHdrInt (n := 2) (show brick.w < 0x100 ^ 2 by omega)
  · exact getBrickHdrInt_brickHdrInt (n := 2) (show brick.h < 0x100 ^ 2 by omega)
  · exact getBrickHdrInt_brickHdrInt (n := 4)
      (show brick.data.length + 24 < 0x100 ^ 4 by omega)
  · exact getBrickHdrInt_brickHdrInt (n := 4) halloc'

theorem knownFormat_formatCode (format : BrickFormat) :
    knownFormat (prm.formatCode format) prm.formatList = true := by
  unfold formatList
  have h2 := prm.formatCode_ne_zero .grayscale16
  have h3 := prm.formatCode_ne_zero .rgb24
  have h4 := prm.formatCode_ne_zero .rgba32
  cases format <;> simp only [knownFormat, h2, h3, h4, if_true, if_false, ite_self]

theorem Brick.validate (brick : prm.Brick) {hdr : BrickHdr}
    (hformat : hdr.format = prm.formatCode brick.format) (hw : hdr.width = brick.w)
    (hh : hdr.height = brick.h) (hbufSz : hdr.bufSz = brick.data.length + 24)
    (halloc : hdr.allocSz = brick.hdr.allocSz) : prm.validateBrickHeader hdr = true := by
  have hw_pos := brick.w_pos
  have hw_le := brick.w_le
  have hh_pos := brick.h_pos
  have hh_le := brick.h_le
  have halloc_pos := brick.allocSz_pos
  have halloc_le := brick.allocSz_le
  unfold validateBrickHeader
  dsimp only
  rw [hformat, hw, hh, hbufSz, halloc, knownFormat_formatCode, if_neg (by decide),
    if_neg (by omega), Bool.not_eq_true', decide_eq_false_iff_not, brick.data_length]
  omega

/-- A receiving end which has taken the first `n` bytes of a brick. -/
structure Brick.Collects (brick : prm.Brick) (b : BrickReceiver) (n : ℕ) : Prop where
  bufSz : b.bufSz = brick.sent.length
  pos : b.pos = n
  fits : brick.sent.length ≤ b.buf.length
  buf : b.buf.take n = brick.sent.take n

/-- A receiving end which has taken `n` bytes of a brick, of which `delivered` bytes
have been delivered, takes the rest of these. -/
theorem Brick.Collects.readBrick {brick : prm.Brick} {b : BrickReceiver} {n delivered : ℕ}
    (h : brick.Collects b n) (hn : n ≤ delivered) (hdelivered : delivered ≤ brick.sent.length) :
    ∃ b', (delivered < brick.sent.length ∧ brick.Collects b' delivered ∧
        prm.readBrick b ((brick.sent.take delivered).drop n) =
          ⟨b', .success, delivered - n, []⟩) ∨
      (delivered = brick.sent.length ∧ b'.pos = 0 ∧
        prm.readBrick b ((brick.sent.take delivered).drop n) =
          ⟨b', .completed, delivered - n, [brick.bytes 0]⟩) := by
  obtain ⟨hbufSz, hpos, hfits, hbuf⟩ := h
  have hsent := brick.sent_length
  have hlength : ((brick.sent.take delivered).drop n).length = delivered - n := by
    rw [List.length_drop, List.length_take]
    omega
  have hdata : ((brick.sent.take delivered).drop n).take (b.bufSz - b.pos) =
      (brick.sent.take delivered).drop n := by
    apply List.take_of_length_le
    rw [hlength, hbufSz, hpos]
    omega
  have hpart : (brick.sent.take n).length = n := by
    rw [List.length_take]
    omega
  have hjoin : brick.sent.take n ++ (brick.sent.take delivered).drop n =
      brick.sent.take delivered := by
    have htake : brick.sent.take n = (brick.sent.take delivered).take n := by
      rw [List.take_take, Nat.min_eq_left hn]
    rw [htake, List.take_append_drop]
  have hcollected : (overwrite b.buf n ((brick.sent.take delivered).drop n)).take delivered =
      brick.sent.take delivered := by
    have hstart : b.buf.take (brick.sent.take n).length = brick.sent.take n := by
      rw [hpart, hbuf]
    have htake := overwrite_take hstart ((brick.sent.take delivered).drop n)
    have hall : (brick.sent.take delivered).length = delivered := by
      rw [List.length_take]
      omega
    rw [hjoin, hpart, hall] at htake
    exact htake
  have hbuflen : (overwrite b.buf n ((brick.sent.take delivered).drop n)).length =
      b.buf.length := overwrite_length (by rw [hlength]; omega)
  unfold BrickParams.readBrick
  dsimp only
  rw [hdata, hlength, hpos, hbufSz, Nat.add_sub_cancel' hn]
  generalize overwrite b.buf n ((brick.sent.take delivered).drop n) = buf at hcollected hbuflen ⊢
  by_cases hmore : delivered < brick.sent.length
  · rw [if_pos hmore]
    exact ⟨_, Or.inl ⟨hmore, ⟨rfl, rfl, hbuflen.symm ▸ hfits, hcollected⟩, rfl⟩⟩
  · have hall : delivered = brick.sent.length := by omega
    rw [hall, List.take_length] at hcollected
    have hchecksum : (brickHdrOf buf).checksum = prm.checksum (brick.bytes 0) := by
      rw [(brickHdrOf_congr (by omega) hcollected).2.1]
      exact (brick.brickHdrOf_bytes (prm.checksum_lt _)).2.1
    have hclear : (clearBrickChecksum buf).take brick.sent.length = brick.bytes 0 := by
      unfold clearBrickChecksum
      rw [take_overwrite (by simp only [List.length_cons, List.length_nil]; omega) (by omega),
        hcollected]
      exact brick.clearBrickChecksum_bytes _
    rw [if_neg hmore, hclear, hchecksum, if_neg (fun hne => hne rfl)]
    exact ⟨_, Or.inr ⟨hall, rfl, rfl⟩⟩

theorem Brick.receive_start (brick : prm.Brick) {b : BrickReceiver} {delivered : ℕ}
    (hpos : b.pos = 0) (hdelivered : delivered ≤ brick.sent.length) :
    (delivered < 24 ∧
        prm.receiveRingBrickData b (brick.sent.take delivered) = ⟨b, .success, 0, []⟩) ∨
      (24 ≤ delivered ∧ ∃ b', brick.Collects b' 0 ∧
        prm.receiveRingBrickData b (brick.sent.take delivered) =
          prm.readBrick b' (brick.sent.take delivered)) := by
  have hsent := brick.sent_length
  have hlength : ((brick.sent.take delivered).take 24).length = min 24 delivered := by
    rw [List.length_take, List.length_take]
    omega
  unfold receiveRingBrickData
  dsimp only
  rw [if_pos (by omega), hlength]
  by_cases hshort : delivered < 24
  · rw [if_pos (by omega)]
    exact Or.inl ⟨hshort, rfl⟩
  · have hfirst : brick.sent.take 24 = (brick.sent.take delivered).take 24 := by
      rw [List.take_take, Nat.min_eq_left (by omega)]
    obtain ⟨hformat, -, hw, hh, hbufSz, halloc⟩ := brickHdrOf_congr (by decide) hfirst
    obtain ⟨hformat', -, hw', hh', hbufSz', halloc'⟩ :=
      brick.brickHdrOf_bytes (prm.checksum_lt (brick.bytes 0))
    have hvalid := brick.validate (hformat.symm.trans hformat') (hw.symm.trans hw')
      (hh.symm.trans hh') (hbufSz.symm.trans hbufSz') (halloc.symm.trans halloc')
    rw [if_neg (by omega), hvalid, if_neg (by decide), ← hbufSz, show
      (brickHdrOf brick.sent).bufSz = brick.sent.length from hbufSz'.trans hsent.symm]
    refine Or.inr ⟨by omega, prm.allocateFor b brick.sent.length, ⟨rfl, hpos, ?_, rfl⟩, rfl⟩
    have hor : brick.sent.length ≤ brick.sent.length ||| 0x0FFF := Nat.left_le_or
    have hgranted := prm.le_granted (brick.sent.length ||| 0x0FFF)
    unfold allocateFor
    dsimp only
    split_ifs with hsmall
    · rw [List.length_replicate]
      omega
    · omega

end BrickParams

end Iocom
