import Mathlib.Data.List.Basic
import Mathlib.Data.List.TakeDrop
import Mathlib.Tactic.Ring

/-!
# Frame data compression

The run length coding of `ioc_compress.c`: pairs of a literal run and a zero
run, each at most 255 bytes long and preceded by its length.  Compression may
stop early when the destination is full; what it has written by then is a
complete encoding of the bytes it has consumed, which is what the receiving
end needs.
-/

namespace Iocom

/-- Length of the literal run at the head of `src`: it ends at the limit, at
the end of the data, and before two zero bytes. -/
def literalCount : ℕ → List UInt8 → ℕ
  | 0, _ => 0
  | _ + 1, [] => 0
  | limit + 1, b :: src =>
      if b ≠ 0 ∨ (limit ≠ 0 ∧ src.headD 0 ≠ 0) then
        literalCount limit src + 1
      else 0

/-- Length of the zero run at the head of `src`. -/
def zeroCount : ℕ → List UInt8 → ℕ
  | 0, _ => 0
  | _ + 1, [] => 0
  | limit + 1, b :: src => if b = 0 then zeroCount limit src + 1 else 0

/-- The main loop of `ioc_compress`: the bytes stored in a destination with
`room` bytes left, and the source bytes left uncompressed. -/
def compressLoop : ℕ → ℕ → List UInt8 → List UInt8 × List UInt8
  | 0, _, src => ([], src)
  | fuel + 1, room, src =>
      if src = [] then ([], [])
      else
        let count := literalCount (min src.length 255) src
        if room ≤ count then ([], src)
        else
          let literal := UInt8.ofNat count :: src.take count
          let src₁ := src.drop count
          if src₁ = [] then (literal, [])
          else
            let zeros := zeroCount (min src₁.length 255) src₁
            if room - (count + 1) = 0 then (literal, src₁)
            else
              let tail :=
                compressLoop fuel (room - (count + 2)) (src₁.drop zeros)
              (literal ++ UInt8.ofNat zeros :: tail.1, tail.2)

/-- `ioc_compress` on the bytes `start_addr .. end_addr`: the stored bytes and
the number of source bytes they encode, or `none` when the data is not
compressed because it is too short or would not get shorter. -/
def compress (src : List UInt8) (dstSz : ℕ) : Option (List UInt8 × ℕ) :=
  if src.length < 4 then none
  else
    let result := compressLoop src.length dstSz src
    let count := src.length - result.2.length
    if result.1.length < count then some (result.1, count) else none

/-- The main loop of `ioc_uncompress`: the values for the next destination
bytes, and whether the source turned out to be corrupted.  In a delta encoded
frame a zero run skips the bytes, which is adding zero to each of them. -/
def uncompressLoop : ℕ → List UInt8 → ℕ → List UInt8 × Bool
  | 0, _, _ => ([], false)
  | _ + 1, [], _ => ([], false)
  | fuel + 1, b :: src, dstSz =>
      if dstSz = 0 then ([], false)
      else if src.length < b.toNat then ([], true)
      else
        let n := min b.toNat dstSz
        match src.drop n with
        | [] => (src.take n, false)
        | z :: src₁ =>
            if dstSz - n = 0 then (src.take n, false)
            else
              let zeros := min z.toNat (dstSz - n)
              let tail := uncompressLoop fuel src₁ (dstSz - n - zeros)
              (src.take n ++ List.replicate zeros 0 ++ tail.1, tail.2)

/-- `ioc_uncompress`: the values for the first bytes of the destination, and
whether it returns -1. -/
def uncompress (src : List UInt8) (dstSz : ℕ) (compressed : Bool) :
    List UInt8 × Bool :=
  if compressed then uncompressLoop src.length src dstSz
  else (src.take dstSz, false)

theorem literalCount_le (limit : ℕ) (src : List UInt8) :
    literalCount limit src ≤ limit ∧ literalCount limit src ≤ src.length := by
  induction limit generalizing src with
  | zero => simp [literalCount]
  | succ limit ih =>
      cases src with
      | nil => simp [literalCount]
      | cons b src =>
          have := ih src
          simp only [literalCount, List.length_cons]
          split <;> omega

theorem zeroCount_le (limit : ℕ) (src : List UInt8) :
    zeroCount limit src ≤ limit := by
  induction limit generalizing src with
  | zero => simp [zeroCount]
  | succ limit ih =>
      cases src with
      | nil => simp [zeroCount]
      | cons b src =>
          have := ih src
          simp only [zeroCount]
          split <;> omega

theorem take_zeroCount (limit : ℕ) (src : List UInt8) :
    src.take (zeroCount limit src) =
      List.replicate (zeroCount limit src) 0 := by
  induction limit generalizing src with
  | zero => simp [zeroCount]
  | succ limit ih =>
      cases src with
      | nil => simp [zeroCount]
      | cons b src =>
          by_cases hb : b = 0
          · simp [zeroCount, hb, ih, List.replicate_succ]
          · simp [zeroCount, hb]

theorem uInt8_ofNat_toNat {n : ℕ} (hn : n ≤ 255) : (UInt8.ofNat n).toNat = n := by
  simp only [UInt8.toNat_ofNat']
  omega

/-- What the compression loop has written decodes to exactly the bytes it has
consumed, whatever made it stop. -/
theorem uncompressLoop_compressLoop
    (fuel room : ℕ) (src : List UInt8) :
    ∃ consumed, src = consumed ++ (compressLoop fuel room src).2 ∧
      ∀ fuel' dstSz,
        (compressLoop fuel room src).1.length ≤ fuel' →
        consumed.length ≤ dstSz →
        uncompressLoop fuel' (compressLoop fuel room src).1 dstSz =
          (consumed, false) := by
  have hempty : ∀ fuel' dstSz, uncompressLoop fuel' [] dstSz = ([], false) := by
    intro fuel' dstSz
    cases fuel' <;> rfl
  induction fuel generalizing room src with
  | zero => exact ⟨[], by simp [compressLoop], fun _ _ _ _ => hempty _ _⟩
  | succ fuel ih =>
      simp only [compressLoop]
      split
      · rename_i hsrc
        exact ⟨[], by simp [hsrc], fun _ _ _ _ => hempty _ _⟩
      split
      · exact ⟨[], by simp, fun _ _ _ _ => hempty _ _⟩
      have hcount := literalCount_le (min src.length 255) src
      generalize literalCount (min src.length 255) src = count at *
      have hbyte : (UInt8.ofNat count).toNat = count :=
        uInt8_ofNat_toNat (by omega)
      have htake : (src.take count).length = count := by
        simp [hcount.2]
      -- Decoding the literal run alone, with nothing or no room after it.
      have hliteral : ∀ fuel' dstSz,
          count + 1 ≤ fuel' → count ≤ dstSz →
          uncompressLoop fuel' (UInt8.ofNat count :: src.take count) dstSz =
            (src.take count, false) := by
        intro fuel' dstSz hfuel hdst
        obtain ⟨fuel', rfl⟩ : ∃ k, fuel' = k + 1 := ⟨fuel' - 1, by omega⟩
        by_cases hzero : dstSz = 0
        · have hnil : src.take count = [] := by
            apply List.length_eq_zero_iff.mp
            omega
          simp [uncompressLoop, hzero, hnil]
        · have hmin : min count dstSz = count := by omega
          simp [uncompressLoop, hzero, hbyte, hmin, hcount.2]
      split
      · rename_i hrest
        refine ⟨src.take count, ?_, ?_⟩
        · rw [List.append_nil]
          have hle : src.length ≤ count := by simpa using hrest
          exact (List.take_of_length_le hle).symm
        · intro fuel' dstSz hfuel hdst
          exact hliteral fuel' dstSz (by simpa [htake] using hfuel) (by omega)
      have hzeros := zeroCount_le (min (src.drop count).length 255) (src.drop count)
      have hrun := take_zeroCount (min (src.drop count).length 255) (src.drop count)
      generalize zeroCount (min (src.drop count).length 255) (src.drop count) = zeros at *
      split
      · refine ⟨src.take count, (List.take_append_drop count src).symm, ?_⟩
        intro fuel' dstSz hfuel hdst
        exact hliteral fuel' dstSz (by simpa [htake] using hfuel) (by omega)
      obtain ⟨consumed, hsplit, hdecode⟩ :=
        ih (room - (count + 2)) ((src.drop count).drop zeros)
      generalize compressLoop fuel (room - (count + 2)) ((src.drop count).drop zeros) = tail at *
      have hzbyte : (UInt8.ofNat zeros).toNat = zeros :=
        uInt8_ofNat_toNat (by omega)
      refine ⟨src.take count ++ List.replicate zeros 0 ++ consumed, ?_, ?_⟩
      · calc
          src = src.take count ++ src.drop count :=
            (List.take_append_drop count src).symm
          _ = src.take count ++
              ((src.drop count).take zeros ++ (src.drop count).drop zeros) := by
            rw [List.take_append_drop zeros]
          _ = src.take count ++ List.replicate zeros 0 ++ consumed ++ tail.2 := by
            rw [hrun, hsplit]
            simp only [List.append_assoc]
      · intro fuel' dstSz hfuel hdst
        simp only [List.length_append, List.length_cons, List.length_replicate,
          htake] at hfuel hdst
        obtain ⟨fuel', rfl⟩ : ∃ k, fuel' = k + 1 := ⟨fuel' - 1, by omega⟩
        by_cases hfull : dstSz - count = 0
        · -- The destination is full: the rest of the code stands for no bytes.
          have hz : zeros = 0 := by omega
          have hc : consumed = [] := List.length_eq_zero_iff.mp (by omega)
          by_cases hzero : dstSz = 0
          · have hnil : src.take count = [] :=
              List.length_eq_zero_iff.mp (by omega)
            simp [uncompressLoop, hzero, hz, hc, hnil]
          · have hmin : min count dstSz = count := by omega
            have hcd : count = dstSz := by omega
            simp [uncompressLoop, hzero, hbyte, hmin, htake, hz, hc]
            omega
        · have hmin : min count dstSz = count := by omega
          have hzmin : min zeros (dstSz - count) = zeros := by omega
          have htail := hdecode fuel' (dstSz - count - zeros) (by omega) (by omega)
          have hdst0 : dstSz ≠ 0 := by omega
          simp [uncompressLoop, hdst0, hbyte, hzbyte, hmin, hzmin, htake, hfull,
            htail]

/-- The receiving end recovers from a compressed frame exactly the bytes that
`ioc_compress` reports as consumed. -/
theorem uncompress_compress
    {src out : List UInt8} {room count : ℕ}
    (hcompress : compress src room = some (out, count)) :
    count ≤ src.length ∧
      ∀ dstSz, count ≤ dstSz →
        uncompress out dstSz true = (src.take count, false) := by
  unfold compress at hcompress
  split at hcompress
  · contradiction
  simp only at hcompress
  split at hcompress
  · simp only [Option.some.injEq, Prod.mk.injEq] at hcompress
    obtain ⟨rfl, rfl⟩ := hcompress
    obtain ⟨consumed, hsplit, hdecode⟩ :=
      uncompressLoop_compressLoop src.length room src
    have hlen : src.length - (compressLoop src.length room src).2.length =
        consumed.length := by
      have := congrArg List.length hsplit
      simp only [List.length_append] at this
      omega
    rw [hlen]
    have hbegins : src.take consumed.length = consumed := by
      conv_lhs => rw [hsplit]
      simp
    constructor
    · have := congrArg List.length hsplit
      simp only [List.length_append] at this
      omega
    · intro dstSz hdst
      rw [hbegins]
      exact hdecode _ _ le_rfl hdst
  · contradiction

theorem compress_length_le
    {src out : List UInt8} {room count : ℕ}
    (hcompress : compress src room = some (out, count)) :
    out.length < count := by
  unfold compress at hcompress
  split at hcompress
  · contradiction
  simp only at hcompress
  split at hcompress
  · simp only [Option.some.injEq, Prod.mk.injEq] at hcompress
    obtain ⟨rfl, rfl⟩ := hcompress
    assumption
  · contradiction

/-- Compression never stores more than the destination holds. -/
theorem compressLoop_length_le (fuel room : ℕ) (src : List UInt8) :
    (compressLoop fuel room src).1.length ≤ room := by
  induction fuel generalizing room src with
  | zero => simp [compressLoop]
  | succ fuel ih =>
      simp only [compressLoop]
      have hcount := literalCount_le (min src.length 255) src
      generalize literalCount (min src.length 255) src = count at *
      split
      · simp
      split
      · simp
      split
      · simp only [List.length_cons, List.length_take]
        omega
      split
      · simp only [List.length_cons, List.length_take]
        omega
      · have := ih (room - (count + 2)) ((src.drop count).drop
          (zeroCount (min (src.drop count).length 255) (src.drop count)))
        simp only [List.length_append, List.length_cons, List.length_take]
        omega

theorem compress_length_le_room
    {src out : List UInt8} {room count : ℕ}
    (hcompress : compress src room = some (out, count)) :
    out.length ≤ room := by
  unfold compress at hcompress
  split at hcompress
  · contradiction
  simp only at hcompress
  split at hcompress
  · simp only [Option.some.injEq, Prod.mk.injEq] at hcompress
    obtain ⟨rfl, -⟩ := hcompress
    exact compressLoop_length_le _ _ _
  · contradiction

theorem uncompressLoop_length_le (fuel : ℕ) (src : List UInt8) (dstSz : ℕ) :
    (uncompressLoop fuel src dstSz).1.length ≤ dstSz := by
  induction fuel generalizing src dstSz with
  | zero => simp [uncompressLoop]
  | succ fuel ih =>
      cases src with
      | nil => simp [uncompressLoop]
      | cons b src =>
          simp only [uncompressLoop]
          split
          · simp
          split
          · simp
          split
          · simp only [List.length_take]
            omega
          split
          · simp only [List.length_take]
            omega
          · rename_i z src₁ hdrop hroom
            have := ih src₁ (dstSz - min b.toNat dstSz -
              min z.toNat (dstSz - min b.toNat dstSz))
            simp only [List.length_append, List.length_take, List.length_replicate]
            omega

theorem uncompress_length_le (src : List UInt8) (dstSz : ℕ) (compressed : Bool) :
    (uncompress src dstSz compressed).1.length ≤ dstSz := by
  unfold uncompress
  split
  · exact uncompressLoop_length_le _ _ _
  · simp

end Iocom
