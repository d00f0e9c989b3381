import Iocom.TargetBuffer
import Mathlib.Tactic.Linarith

/-!
# Compressing and uncompressing address ranges

`ioc_compress` and `ioc_uncompress` as they are called: on a range of a
source buffer, and into a destination which keeps what lies outside the
written bytes.  Counters are `os_int`.
-/

namespace Iocom

/-- What `ioc_compress` leaves behind: the returned value, the start address
and the bytes stored at the beginning of the destination. -/
structure CompressedRange where
  rval : ℤ
  startAddr : ℤ
  stored : List UInt8

/-- `ioc_compress` on the bytes `startAddr .. endAddr` of a source buffer. -/
def compressRange (srcbuf : Mem) (startAddr endAddr : ℤ) (dstSz : ℕ) :
    CompressedRange :=
  if endAddr - startAddr < 3 then
    { rval := -1, startAddr := startAddr, stored := [] }
  else
    let src := Segment.segment srcbuf startAddr (endAddr - startAddr + 1).toNat
    let result := compressLoop src.length dstSz src
    let count : ℤ := src.length - result.2.length
    let dstCount := osInt result.1.length
    let rval := if dstCount < count then dstCount else -1
    { rval := rval
      startAddr := if 0 ≤ rval then startAddr + count else startAddr
      stored := result.1 }

/-- `ioc_uncompress` into the destination bytes from `dst` on: the returned
value and the memory with the destination in it. -/
def uncompressInto (src : List UInt8) (mem : Mem) (dst : ℤ) (dstSz : ℕ)
    (flags : DataFlags) : ℤ × Mem :=
  let decoded := uncompress src dstSz flags.compressed
  (if decoded.2 then -1 else osInt decoded.1.length,
    Segment.combineAt flags.combine mem dst decoded.1)

/-- A literal run which is shorter than its limit is followed by a zero run. -/
theorem zeroCount_pos_of_literalCount_lt
    {limit : ℕ} {src : List UInt8}
    (hlt : literalCount limit src < limit) (hlen : limit ≤ src.length) :
    0 < zeroCount (min (src.drop (literalCount limit src)).length 255)
      (src.drop (literalCount limit src)) := by
  induction limit generalizing src with
  | zero => omega
  | succ limit ih =>
      cases src with
      | nil => simp at hlen
      | cons b src =>
          simp only [literalCount] at hlt ⊢
          split at hlt
          · rename_i hliteral
            rw [if_pos hliteral]
            simp only [List.length_cons] at hlen
            simpa using ih (by omega) (by omega)
          · rename_i hliteral
            rw [if_neg hliteral]
            have hb : b = 0 := by
              by_contra hb
              exact hliteral (.inl hb)
            have hmin : min (b :: src).length 255 = min src.length 254 + 1 := by
              simp only [List.length_cons]
              omega
            rw [List.drop_zero, hmin]
            simp [zeroCount, hb]

/-- An encoding is at most twice as long as what it encodes, apart from an
empty literal run which has no room for its zero run. -/
theorem compressLoop_length_le_twice (fuel room : ℕ) (src : List UInt8) :
    (compressLoop fuel room src).1.length +
      2 * (compressLoop fuel room src).2.length ≤ 2 * src.length + 1 := by
  induction fuel generalizing room src with
  | zero => simp [compressLoop]
  | succ fuel ih =>
      simp only [compressLoop]
      split
      · simp
      rename_i hsrc
      split
      · simp
      have hsrcPos := List.length_pos_iff.mpr hsrc
      have hcount := literalCount_le (min src.length 255) src
      have hfollow := @zeroCount_pos_of_literalCount_lt (min src.length 255) src
      generalize literalCount (min src.length 255) src = count at *
      have hdrop : (src.drop count).length = src.length - count := List.length_drop
      split
      · simp only [List.length_cons, List.length_take, List.length_nil]
        omega
      rename_i hrest
      have hrestPos := List.length_pos_iff.mpr hrest
      have hzeros := zeroCount_le (min (src.drop count).length 255) (src.drop count)
      generalize zeroCount (min (src.drop count).length 255) (src.drop count) = zeros at *
      split
      · simp only [List.length_cons, List.length_take, List.length_drop]
        omega
      · have htail := ih (room - (count + 2)) ((src.drop count).drop zeros)
        simp only [List.length_append, List.length_cons, List.length_take]
        rw [@List.length_drop _ _ (src.drop count), hdrop] at htail
        -- Either the literal run is full or a zero run follows it.
        have hround : count + 2 ≤ 2 * (count + zeros) := by
          by_cases hfull : count = 255
          · omega
          · have hzerosPos : 0 < zeros := hfollow (by omega) (by omega)
            omega
        omega

/-- When `ioc_compress` does not return a negative value, its counters have
not wrapped around. -/
theorem compress_of_compressRange
    {srcbuf : Mem} {startAddr endAddr : ℤ} {dstSz : ℕ}
    (hstart : 0 ≤ startAddr) (hend : endAddr < 0x7FFFFFFF)
    (hrval : 0 ≤ (compressRange srcbuf startAddr endAddr dstSz).rval) :
    ∃ count : ℕ,
      compress (Segment.segment srcbuf startAddr (endAddr - startAddr + 1).toNat)
          dstSz =
        some ((compressRange srcbuf startAddr endAddr dstSz).stored, count) ∧
      (compressRange srcbuf startAddr endAddr dstSz).rval =
        (compressRange srcbuf startAddr endAddr dstSz).stored.length ∧
      (compressRange srcbuf startAddr endAddr dstSz).startAddr =
        startAddr + count := by
  unfold compressRange at hrval ⊢
  split at hrval
  · simp at hrval
  rename_i hlong
  rw [if_neg hlong]
  have hlength :
      (Segment.segment srcbuf startAddr (endAddr - startAddr + 1).toNat).length =
        (endAddr - startAddr + 1).toNat := Segment.segment_length _ _ _
  generalize Segment.segment srcbuf startAddr (endAddr - startAddr + 1).toNat = src at *
  dsimp only at hrval ⊢
  have htwice := compressLoop_length_le_twice src.length dstSz src
  unfold compress
  generalize compressLoop src.length dstSz src = result at *
  split at hrval
  · rename_i hshorter
    have hwrap : osInt result.1.length = result.1.length := by
      unfold osInt at hrval ⊢
      rw [Int.bmod_def] at hrval ⊢
      omega
    rw [hwrap] at hshorter ⊢
    refine ⟨src.length - result.2.length, ?_, ?_, ?_⟩
    · rw [if_neg (by omega)]
      dsimp only
      rw [if_pos (by omega)]
    · rw [if_pos hshorter]
    · rw [if_pos hshorter, if_pos (by omega)]
      omega
  · omega

/-- Storing decoded bytes in the destination changes these bytes only. -/
theorem uncompressInto_apply
    {src : List UInt8} {srcbuf mem : Mem} {startAddr dst : ℤ} {dstSz k : ℕ}
    {flags : DataFlags} (hk : k ≤ 0x7FFFFFFF)
    (hdecode : uncompress src dstSz flags.compressed =
      (Segment.segment srcbuf startAddr k, false)) :
    (uncompressInto src mem dst dstSz flags).1 = k ∧
      ∀ i, (uncompressInto src mem dst dstSz flags).2 i =
        if dst ≤ i ∧ i < dst + k then
          flags.combine (mem i) (srcbuf (startAddr + (i - dst)))
        else mem i := by
  unfold uncompressInto
  rw [hdecode]
  have hshift : Segment.segment srcbuf startAddr k =
      Segment.segment (fun i => srcbuf (startAddr + (i - dst))) dst k := by
    apply List.map_congr_left
    intro j hj
    simp
  dsimp only
  constructor
  · rw [if_neg (by simp), Segment.segment_length]
    exact osInt_of_range (by omega) (by omega)
  · intro i
    rw [hshift]
    exact Segment.combineAt_segment _ _ _ _ _ _

/-- `ioc_uncompress` undoes `ioc_compress`: what it stores from the encoded
bytes is the consumed part of the source range, and it changes nothing else in
the destination. -/
theorem uncompress_undoes_compress
    (srcbuf : Mem) (startAddr endAddr : ℤ) (dstSz : ℕ)
    (hstart : 0 ≤ startAddr) (hend : endAddr < 0x7FFFFFFF) :
    let compressed := compressRange srcbuf startAddr endAddr dstSz
    (compressed.rval = -1 → compressed.startAddr = startAddr) ∧
    (0 ≤ compressed.rval →
      ∃ k : ℕ,
        compressed.startAddr - startAddr = k ∧
        compressed.rval = compressed.stored.length ∧
        compressed.rval ≤ dstSz ∧
        compressed.rval < k ∧
        k ≤ endAddr - startAddr + 1 ∧
        ∀ (mem : Mem) (dst : ℤ) (room : ℕ) (flags : DataFlags),
          flags.compressed = true → k ≤ room →
          let uncompressed := uncompressInto compressed.stored mem dst room flags
          uncompressed.1 = k ∧
          ∀ i, uncompressed.2 i =
            if dst ≤ i ∧ i < dst + k then
              if flags.deltaEncoded then
                mem i + srcbuf (startAddr + (i - dst))
              else srcbuf (startAddr + (i - dst))
            else mem i) := by
  intro compressed
  constructor
  · intro hrval
    change (compressRange srcbuf startAddr endAddr dstSz).rval = -1 at hrval
    change (compressRange srcbuf startAddr endAddr dstSz).startAddr = startAddr
    unfold compressRange at hrval ⊢
    split at hrval
    · rename_i hshort
      rw [if_pos hshort]
    · rename_i hlong
      rw [if_neg hlong]
      dsimp only at hrval ⊢
      rw [hrval]
      rfl
  · intro hrval
    obtain ⟨k, hcompress, hlength, haddr⟩ :=
      compress_of_compressRange hstart hend hrval
    have hshorter := compress_length_le hcompress
    have hroom := compress_length_le_room hcompress
    obtain ⟨hk, hdecode⟩ := uncompress_compress hcompress
    rw [Segment.segment_length] at hk
    refine ⟨k, ?_, hlength, ?_, ?_, ?_, ?_⟩
    · change (compressRange srcbuf startAddr endAddr dstSz).startAddr - startAddr = k
      omega
    · change (compressRange srcbuf startAddr endAddr dstSz).rval ≤ dstSz
      omega
    · change (compressRange srcbuf startAddr endAddr dstSz).rval < k
      omega
    · omega
    · intro mem dst room flags hflags hkroom
      have hsegment := hdecode room hkroom
      rw [Segment.segment_take _ _ hk, ← hflags] at hsegment
      exact uncompressInto_apply (by omega) hsegment

/-- Four zero bytes from address 2 on take two bytes. -/
theorem uncompress_undoes_compress_zeros :
    let compressed := compressRange (fun _ => 0) 2 5 8
    compressed.rval = 2 ∧ compressed.stored = [0, 4] ∧
    ∃ k : ℕ, compressed.startAddr - 2 = k ∧ compressed.rval < k ∧
      (uncompressInto compressed.stored (fun _ => 7) 0 8
        { deltaEncoded := false, compressed := true, syncComplete := false }).1 = k := by
  have h := uncompress_undoes_compress (fun _ => 0) 2 5 8 (by decide) (by decide)
  have hrval : (compressRange (fun _ => 0) 2 5 8).rval = 2 := by decide
  refine ⟨hrval, by decide, ?_⟩
  obtain ⟨k, hk, -, -, hlt, hle, hinto⟩ := h.2 (by rw [hrval]; decide)
  exact ⟨k, hk, hlt, (hinto (fun _ => 7) 0 8 _ rfl (by omega)).1⟩

end Iocom
